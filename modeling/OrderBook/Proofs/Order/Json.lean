import OrderBook.Order.Json
import OrderBook.Proofs.Json.Plain

/-!
Orders and items read back. Every field is found under the name that it was written with and decodes to
what it was, up to the sign of a price that is zero; and every value is plain JSON of a known depth.
-/

namespace OrderBook

namespace Keyed

variable {α : Type} {key : α → String}

theorem place_append {x : α} {ys : List α} (h : ∀ y ∈ ys, key y < key x) :
    place key x ys = ys ++ [x] := by
  induction ys with
  | nil => rfl
  | cons y ys ih =>
    have hy := h y List.mem_cons_self
    have hne : key x ≠ key y := fun heq => String.lt_irrefl _ (heq ▸ hy)
    rw [place, if_neg (String.lt_asymm hy), if_neg hne, ih fun z hz => h z (List.mem_cons_of_mem y hz)]
    rfl

theorem entries_foldl_insert (xs : List α) (m : Keyed key)
    (h : (m.entries ++ xs).Pairwise fun a b => key a < key b) :
    (xs.foldl (fun m x => m.insert x) m).entries = m.entries ++ xs := by
  induction xs generalizing m with
  | nil => exact (List.append_nil _).symm
  | cons x xs ih =>
    have hlast : (m.insert x).entries = m.entries ++ [x] :=
      place_append fun y hy => (List.pairwise_append.1 h).2.2 y hy x List.mem_cons_self
    have hsplit : m.entries ++ x :: xs = (m.insert x).entries ++ xs := by
      rw [hlast, List.append_assoc]
      rfl
    rw [hsplit] at h ⊢
    exact ih _ h

theorem ofList_entries (m : Keyed key) : ofList m.entries = m := by
  have hentries : (ofList m.entries).entries = m.entries :=
    entries_foldl_insert m.entries empty m.ascending
  cases m
  cases hlist : ofList _
  rw [hlist] at hentries
  cases hentries
  rfl

end Keyed

open Json

/-! Prices -/

def PriceCurve.mapPrices (f : Decimal → Decimal) (c : PriceCurve) : PriceCurve :=
  { c with startPrice := f c.startPrice, endPrice := f c.endPrice }

def Order.mapPrices (f : Decimal → Decimal) (o : Order) : Order :=
  { o with price := o.price.mapPrices f }

def OrderItem.mapPrices (f : Decimal → Decimal) (i : OrderItem) : OrderItem :=
  { i with price := i.price.mapPrices f }

def ResolvedOrder.mapPrices (f : Decimal → Decimal) (r : ResolvedOrder) : ResolvedOrder :=
  ⟨r.order.mapPrices f, r.items.map fun i => i.mapPrices f⟩

namespace PriceCurve

theorem ofJson?_toJson (c : PriceCurve) : ofJson? c.toJson = some (c.mapPrices .unsignZero) := by
  have hfields : c.toJson.fields? ["startPrice", "endPrice", "startTime", "endTime"] =
      some [some (ofDecimal c.startPrice), some (ofDecimal c.endPrice), some (ofUInt64 c.startTime),
        some (ofUInt64 c.endTime)] :=
    fields?_record rfl (by decide)
  exact bind_of_eq_some hfields <| bind_of_eq_some (asDecimal?_ofDecimal _) <|
    bind_of_eq_some (asDecimal?_ofDecimal _) <| bind_of_eq_some (asUInt64?_ofUInt64 _) <|
    bind_of_eq_some (asUInt64?_ofUInt64 _) rfl

theorem plain_toJson (c : PriceCurve) : c.toJson.Plain 1 := by
  refine .record (n := 0) ?_ (by simp)
  simp [Plain.ofDecimal, Plain.ofUInt64]

end PriceCurve

/-! Names -/

@[simp] theorem Side.ofJson?_toJson (s : Side) : ofJson? s.toJson = some s := by
  cases s <;> rfl

@[simp] theorem OrderStatus.ofJson?_toJson (s : OrderStatus) : ofJson? s.toJson = some s := by
  cases s <;> rfl

/-! Attributes and traits -/

namespace Attributes

@[simp] theorem ofJson?_toJson (a : Attributes) : ofJson? a.toJson = some a := by
  have hentries : ∀ entries : List (String × String),
      (namedFields (entries.map fun e => (e.1, text e.2))).mapM
        (fun f : Literal × Json => do return (← f.1, ← f.2.asText?)) = some entries := by
    intro entries
    induction entries with
    | nil => rfl
    | cons e entries ih =>
      rw [List.map_cons, namedFields, List.map_cons, List.mapM_cons]
      rw [namedFields] at ih
      rw [ih]
      rfl
  show (do return Keyed.ofList (← (namedFields _).mapM _)) = some a
  rw [hentries]
  exact congrArg some (Keyed.ofList_entries a)

theorem plain_toJson (a : Attributes) : a.toJson.Plain 1 := by
  refine .record (n := 0) ?_ ?_
  · intro f hf
    obtain ⟨e, -, rfl⟩ := List.mem_map.1 hf
    exact .text e.2
  · intro f hf
    obtain ⟨e, -, rfl⟩ := List.map_eq_singleton_iff.1 hf
    exact nofun

end Attributes

namespace TraitFilter

@[simp] theorem ofJson?_toJson (f : TraitFilter) : ofJson? f.toJson = some f := by
  have hfields : f.toJson.fields? ["traitType", "values"] =
      some [some (text f.traitType), some (ofList text f.values)] :=
    fields?_record rfl (by decide)
  have hvalues := asList?_ofList asText?_text f.values
  exact bind_of_eq_some hfields <| bind_of_eq_some (asText?_text _) <| bind_of_eq_some hvalues rfl

theorem plain_toJson (f : TraitFilter) : f.toJson.Plain 2 := by
  refine .record (n := 1) ?_ (by simp)
  simp [Plain.text, Plain.ofList f.values fun v _ => Plain.text (n := 0) v]

end TraitFilter

/-! Items and orders -/

namespace OrderItem

theorem ofJson?_toJson (i : OrderItem) : ofJson? i.toJson = some (i.mapPrices .unsignZero) := by
  have hfields : i.toJson.fields? fieldNames =
      some [some (text i.id), some (text i.orderId), some (ofUInt64 i.chainId), some i.side.toJson,
        some i.status.toJson, some (ofUInt32 i.numItems), some i.price.toJson, some (text i.complication),
        some (text i.currency), some (text i.collection), some (optional text i.tokenId),
        some (ofUInt32 i.numTokens), some i.tokenAttributes.toJson,
        some (ofList TraitFilter.toJson i.traitFilters)] :=
    fields?_record rfl (by decide)
  have hfilters := asList?_ofList TraitFilter.ofJson?_toJson i.traitFilters
  exact bind_of_eq_some hfields <| bind_of_eq_some (asText?_text _) <|
    bind_of_eq_some (asText?_text _) <| bind_of_eq_some (asUInt64?_ofUInt64 _) <|
    bind_of_eq_some (Side.ofJson?_toJson _) <| bind_of_eq_some (OrderStatus.ofJson?_toJson _) <|
    bind_of_eq_some (asUInt32?_ofUInt32 _) <| bind_of_eq_some (PriceCurve.ofJson?_toJson _) <|
    bind_of_eq_some (asText?_text _) <| bind_of_eq_some (asText?_text _) <|
    bind_of_eq_some (asText?_text _) <| bind_of_eq_some (asOptional?_optional_text _) <|
    bind_of_eq_some (asUInt32?_ofUInt32 _) <| bind_of_eq_some (Attributes.ofJson?_toJson _) <|
    bind_of_eq_some hfilters rfl

theorem plain_toJson (i : OrderItem) : i.toJson.Plain 4 := by
  have hfilters := Plain.ofList i.traitFilters fun f _ => f.plain_toJson
  have hprice := i.price.plain_toJson.mono (m := 3) (by decide)
  have hattributes := i.tokenAttributes.plain_toJson.mono (m := 3) (by decide)
  refine .record (n := 3) ?_ (by simp)
  simp [Plain.text, Plain.ofUInt64, Plain.ofUInt32, Plain.optionalText, Side.toJson, OrderStatus.toJson,
    hprice, hattributes, hfilters]

end OrderItem

namespace Order

theorem ofJson?_toJson (o : Order) : ofJson? o.toJson = some (o.mapPrices .unsignZero) := by
  have hfields : o.toJson.fields? fieldNames =
      some [some (text o.id), some (ofUInt64 o.chainId), some o.side.toJson, some (ofUInt32 o.numItems),
        some o.price.toJson, some o.status.toJson, some (text o.maker), some (text o.complication),
        some (text o.currency)] :=
    fields?_record rfl (by decide)
  exact bind_of_eq_some hfields <| bind_of_eq_some (asText?_text _) <|
    bind_of_eq_some (asUInt64?_ofUInt64 _) <| bind_of_eq_some (Side.ofJson?_toJson _) <|
    bind_of_eq_some (asUInt32?_ofUInt32 _) <| bind_of_eq_some (PriceCurve.ofJson?_toJson _) <|
    bind_of_eq_some (OrderStatus.ofJson?_toJson _) <| bind_of_eq_some (asText?_text _) <|
    bind_of_eq_some (asText?_text _) <| bind_of_eq_some (asText?_text _) rfl

theorem plain_toJson (o : Order) : o.toJson.Plain 2 := by
  have hprice := o.price.plain_toJson
  refine .record (n := 1) ?_ (by simp)
  simp [Plain.text, Plain.ofUInt64, Plain.ofUInt32, Side.toJson, OrderStatus.toJson, hprice]

end Order

namespace ResolvedOrder

theorem ofJson?_toJson (r : ResolvedOrder) : ofJson? r.toJson = some (r.mapPrices .unsignZero) := by
  have hfields : r.toJson.fields? ["order", "items"] =
      some [some r.order.toJson, some (ofList OrderItem.toJson r.items)] :=
    fields?_record rfl (by decide)
  have hitems := asList?_ofList_map OrderItem.ofJson?_toJson r.items
  exact bind_of_eq_some hfields <| bind_of_eq_some (Order.ofJson?_toJson _) <|
    bind_of_eq_some hitems rfl

theorem plain_toJson (r : ResolvedOrder) : r.toJson.Plain 6 := by
  have horder := r.order.plain_toJson.mono (m := 5) (by decide)
  have hitems := Plain.ofList r.items fun i _ => i.plain_toJson
  refine .record (n := 5) ?_ (by simp)
  simp [horder, hitems]

end ResolvedOrder

end OrderBook

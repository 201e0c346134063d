import Mathlib.Data.List.Basic
import OrderBook.Json.Fields
import OrderBook.Proofs.Json.Scanning

/-!
Decoding what was encoded: whole numbers, texts, lists and records. A field of a record is found under
its name because no other field has that name.
-/

namespace OrderBook.Json

@[simp] theorem asText?_text (s : String) : asText? (text s) = some s := rfl

theorem asNat?_nat {limit n : Nat} (h : n < limit) : asNat? limit (nat n) = some n := if_pos h

@[simp] theorem asUInt64?_ofUInt64 (n : UInt64) : asUInt64? (ofUInt64 n) = some n := by
  rw [asUInt64?, ofUInt64, asNat?_nat n.toNat_lt, Option.map_some, UInt64.ofNat_toNat]

theorem asList?_ofList {α : Type} {encode : α → Json} {decode : Json → Option α}
    (h : ∀ a, decode (encode a) = some a) (xs : List α) :
    asList? decode (ofList encode xs) = some xs := by
  have hmap : (xs.map encode).mapM decode = some xs := by
    induction xs with
    | nil => rfl
    | cons x xs ih => simp [h, ih]
  exact hmap

/-! Records -/

theorem once?_record {fields : List (String × Json)} (hnames : (fields.map (·.1)).Nodup)
    {name : String} {x : Json} (h : (name, x) ∈ fields) :
    once? (fields.map fun f => (some f.1, f.2)) name = some (some x) := by
  have hfilter : fields.filter (fun f => f.1 == name) = [(name, x)] := by
    induction fields with
    | nil => cases h
    | cons f fields ih =>
      obtain ⟨hhead, htail⟩ := List.nodup_cons.1 (List.map_cons ▸ hnames)
      rcases List.mem_cons.1 h with rfl | h
      · have hnone : fields.filter (fun f => f.1 == name) = [] := by
          refine List.filter_eq_nil_iff.2 fun g hg hname => hhead ?_
          exact List.mem_map.2 ⟨g, hg, beq_iff_eq.1 hname⟩
        simp [hnone]
      · have hne : f.1 ≠ name := fun hname => hhead (List.mem_map.2 ⟨_, h, hname.symm⟩)
        simpa [hne] using ih htail h
  have hsome : ((fun f : Literal × Json => f.1 == some name) ∘
      fun f : String × Json => (some f.1, f.2)) = fun f => f.1 == name := by
    funext f
    exact Option.some_beq_some
  rw [once?, List.filter_map, hsome, hfilter]
  rfl

theorem fields?_record {fields : List (String × Json)} {names : List String}
    (h : fields.map (·.1) = names) (hnames : names.Nodup) :
    (record fields).fields? names = some (fields.map fun f => some f.2) := by
  subst h
  have hlookup : ∀ part : List (String × Json), part ⊆ fields →
      (part.map (·.1)).mapM (once? (fields.map fun f => (some f.1, f.2))) =
        some (part.map fun f => some f.2) := by
    intro part hpart
    induction part with
    | nil => rfl
    | cons f part ih =>
      have hf := once?_record hnames (hpart List.mem_cons_self)
      simp [hf, ih (List.subset_of_cons_subset hpart)]
  rw [record, fields?, if_pos (by simp)]
  exact hlookup fields (List.Subset.refl fields)

/-! Numbers in lists and records -/

@[simp] theorem isIntegral_text (s : String) : (text s).isIntegral = true := rfl

@[simp] theorem isIntegral_ofUInt64 (n : UInt64) : (ofUInt64 n).isIntegral = true := rfl

@[simp] theorem isIntegral_ofList {α : Type} (encode : α → Json) (xs : List α) :
    (ofList encode xs).isIntegral = xs.all fun a => (encode a).isIntegral := by
  have hitems : ∀ items, itemsIntegral items = items.all isIntegral := by
    intro items
    induction items with
    | nil => rfl
    | cons x items ih => simp [itemsIntegral, ih]
  rw [ofList, isIntegral, hitems, List.all_map]
  rfl

@[simp] theorem isIntegral_record (fields : List (String × Json)) :
    (record fields).isIntegral = fields.all fun f => f.2.isIntegral := by
  rw [record, isIntegral]
  induction fields with
  | nil => rfl
  | cons f fields ih => simp [fieldsIntegral, ih]

end OrderBook.Json

import Mathlib.Data.List.Basic
import OrderBook.Proofs.Decimal.Text
import OrderBook.Proofs.Json.Records

/-!
Values built from texts, whole numbers, lists and records. Wherever they stand they can be taken as a
whole: their numbers are integers of at most 64 bits, every string denotes a text, their depth is known,
and no name in them stands for an empty object.
-/

namespace OrderBook.Json

/-- A value of at most `n` levels that is read as it was written, also where it is taken as a whole. -/
structure Plain (n : Nat) (x : Json) : Prop where
  integral : x.isIntegral = true
  denotes : x.denotes = true
  depth_le : x.depth ≤ n
  nullUnderName : x.nullUnderName = x

theorem depthOfItems_le {n : Nat} {xs : List Json} (h : ∀ x ∈ xs, x.depth ≤ n) :
    depthOfItems xs ≤ n := by
  induction xs with
  | nil => exact Nat.zero_le n
  | cons x xs ih =>
    rw [depthOfItems]
    exact Nat.max_le.2 ⟨h x List.mem_cons_self, ih fun y hy => h y (List.mem_cons_of_mem x hy)⟩

theorem itemsDenote_of {xs : List Json} (h : ∀ x ∈ xs, x.denotes = true) : itemsDenote xs = true := by
  induction xs with
  | nil => rfl
  | cons x xs ih =>
    rw [itemsDenote, h x List.mem_cons_self, ih fun y hy => h y (List.mem_cons_of_mem x hy)]
    rfl

theorem nullUnderNameItems_eq {xs : List Json} (h : ∀ x ∈ xs, x.nullUnderName = x) :
    nullUnderNameItems xs = xs := by
  induction xs with
  | nil => rfl
  | cons x xs ih =>
    rw [nullUnderNameItems, h x List.mem_cons_self, ih fun y hy => h y (List.mem_cons_of_mem x hy)]

def namedFields (fields : List (String × Json)) : List (Literal × Json) :=
  fields.map fun f => (some f.1, f.2)

theorem depthOfFields_le {n : Nat} {fields : List (String × Json)} (h : ∀ f ∈ fields, f.2.depth ≤ n) :
    depthOfFields (namedFields fields) ≤ n := by
  induction fields with
  | nil => exact Nat.zero_le n
  | cons f fields ih =>
    exact Nat.max_le.2 ⟨h f List.mem_cons_self, ih fun g hg => h g (List.mem_cons_of_mem f hg)⟩

theorem fieldsDenote_of {fields : List (String × Json)} (h : ∀ f ∈ fields, f.2.denotes = true) :
    fieldsDenote (namedFields fields) = true := by
  induction fields with
  | nil => rfl
  | cons f fields ih =>
    have hrest : fieldsDenote (namedFields fields) = true :=
      ih fun g hg => h g (List.mem_cons_of_mem f hg)
    show (true && f.2.denotes && fieldsDenote (namedFields fields)) = true
    rw [h f List.mem_cons_self, hrest]
    rfl

theorem nullUnderNameFields_eq {fields : List (String × Json)}
    (h : ∀ f ∈ fields, f.2.nullUnderName = f.2) :
    nullUnderNameFields (namedFields fields) = namedFields fields := by
  induction fields with
  | nil => rfl
  | cons f fields ih =>
    have hrest : nullUnderNameFields (namedFields fields) = namedFields fields :=
      ih fun g hg => h g (List.mem_cons_of_mem f hg)
    show (some f.1, f.2.nullUnderName) :: nullUnderNameFields (namedFields fields) = _
    rw [h f List.mem_cons_self, hrest]
    rfl

namespace Plain

variable {n m : Nat} {x : Json}

theorem mono (h : x.Plain n) (hle : n ≤ m) : x.Plain m :=
  ⟨h.integral, h.denotes, Nat.le_trans h.depth_le hle, h.nullUnderName⟩

theorem text (s : String) : (Json.text s).Plain n := ⟨rfl, rfl, Nat.zero_le n, rfl⟩

theorem null : Json.null.Plain n := ⟨rfl, rfl, Nat.zero_le n, rfl⟩

theorem nat {k : Nat} (h : k < UInt64.size) : (Json.nat k).Plain n := by
  refine ⟨rfl, ?_, Nat.zero_le n, rfl⟩
  show (Number.ofNat k).inRange = true
  rw [Number.inRange, Number.ofNat, Number.int?, if_pos h]
  rfl

theorem ofUInt64 (k : UInt64) : (Json.ofUInt64 k).Plain n := nat k.toNat_lt

theorem ofUInt32 (k : UInt32) : (Json.ofUInt32 k).Plain n :=
  nat (Nat.lt_trans k.toNat_lt (by decide))

theorem ofDecimal (d : Decimal) : (Json.ofDecimal d).Plain n := text _

theorem optionalText (s : Option String) : (optional Json.text s).Plain n := by
  cases s with
  | none => exact null
  | some s => exact text s

theorem ofList {α : Type} {encode : α → Json} (xs : List α) (h : ∀ a ∈ xs, (encode a).Plain n) :
    (Json.ofList encode xs).Plain (n + 1) := by
  have each : ∀ {P : Json → Prop}, (∀ a ∈ xs, P (encode a)) → ∀ y ∈ xs.map encode, P y := by
    intro P hP y hy
    obtain ⟨a, ha, rfl⟩ := List.mem_map.1 hy
    exact hP a ha
  refine ⟨?_, ?_, ?_, ?_⟩
  · rw [isIntegral_ofList, List.all_eq_true]
    exact fun a ha => (h a ha).integral
  · exact itemsDenote_of (each fun a ha => (h a ha).denotes)
  · exact Nat.succ_le_succ (depthOfItems_le (each fun a ha => (h a ha).depth_le))
  · exact congrArg Json.array (nullUnderNameItems_eq (each fun a ha => (h a ha).nullUnderName))

/-- A record, unless it is a name for an empty object. -/
theorem record {fields : List (String × Json)} (h : ∀ f ∈ fields, f.2.Plain n)
    (hname : ∀ f, fields = [f] → f.2 ≠ .object []) : (Json.record fields).Plain (n + 1) := by
  refine ⟨?_, ?_, ?_, ?_⟩
  · rw [isIntegral_record, List.all_eq_true]
    exact fun f hf => (h f hf).integral
  · exact fieldsDenote_of fun f hf => (h f hf).denotes
  · exact Nat.succ_le_succ (depthOfFields_le fun f hf => (h f hf).depth_le)
  · have hfields := nullUnderNameFields_eq fun f hf => (h f hf).nullUnderName
    refine Eq.trans ?_ (congrArg Json.object hfields)
    show Json.nullUnderName (.object (namedFields fields)) = _
    rw [Json.nullUnderName]
    rintro k heq
    obtain ⟨f, hf, hpair⟩ := List.map_eq_singleton_iff.1 heq
    exact hname f hf (congrArg Prod.snd hpair)

theorem isSound (h : x.Plain n) {level : Nat} (hlevel : level + n ≤ maxDepth) :
    x.isSound level = true := by
  have hdepth := h.depth_le
  rw [Json.isSound, h.denotes, Bool.true_and, decide_eq_true_eq]
  omega

end Plain

/-! Decoding -/

theorem bind_of_eq_some {α β : Type} {x : Option α} {a : α} {f : α → Option β} {r : Option β}
    (h : x = some a) (hf : f a = r) : (x >>= f) = r := by
  subst h
  exact hf

@[simp] theorem asUInt32?_ofUInt32 (n : UInt32) : asUInt32? (ofUInt32 n) = some n := by
  rw [asUInt32?, ofUInt32, asNat?_nat n.toNat_lt, Option.map_some, UInt32.ofNat_toNat]

@[simp] theorem asDecimal?_ofDecimal (d : Decimal) : asDecimal? (ofDecimal d) = some d.unsignZero :=
  Decimal.ofText?_toText d

@[simp] theorem asOptional?_optional_text (s : Option String) :
    asOptional? asText? (optional text s) = some s := by
  cases s with
  | none => rfl
  | some s => rfl

theorem asList?_ofList_map {α : Type} {encode : α → Json} {decode : Json → Option α} {f : α → α}
    (h : ∀ a, decode (encode a) = some (f a)) (xs : List α) :
    asList? decode (ofList encode xs) = some (xs.map f) := by
  have hmap : (xs.map encode).mapM decode = some (xs.map f) := by
    induction xs with
    | nil => rfl
    | cons x xs ih => simp [h, ih]
  exact hmap

end OrderBook.Json

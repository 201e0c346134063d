import Mathlib.Algebra.Order.BigOperators.Group.List
import Mathlib.Algebra.Order.Group.Nat
import OrderBook.Order.Validation

/-!
Counts added up in words of 32 bits, one after the other. Where every step is checked the result is the
exact sum, and there is one exactly if that is a count again; where the steps wrap around, the result is
the exact sum as far as words go. So both agree on terms that add up to no more than some count.
-/

namespace OrderBook

-- The zero of sums is the literal.
attribute [local instance (high)] Zero.ofOfNat0

theorem foldlM_addCounts?_eq_some {β : Type} {f : β → UInt32} {l : List β} {a c : UInt32} :
    l.foldlM (fun sum x => addCounts? sum (f x)) a = some c ↔
      a.toNat + (l.map fun x => (f x).toNat).sum = c.toNat := by
  induction l generalizing a with
  | nil => simp [UInt32.toNat_inj]
  | cons x l ih =>
    rw [List.foldlM_cons, List.map_cons, List.sum_cons]
    constructor
    · intro h
      obtain ⟨b, hb, h⟩ := Option.bind_eq_some_iff.1 h
      have hb := addCounts?_eq_some.1 hb
      have h := ih.1 h
      omega
    · intro h
      have hc := c.toNat_lt
      have hlt : a.toNat + (f x).toNat < UInt32.size := by
        simp only [UInt32.size]
        omega
      have hadd : (a + f x).toNat = a.toNat + (f x).toNat := by
        rw [UInt32.toNat_add]
        exact Nat.mod_eq_of_lt hlt
      refine Option.bind_eq_some_iff.2 ⟨a + f x, ?_, ih.2 (by omega)⟩
      exact addCounts?_eq_some.2 hadd.symm

def checkedSum? (terms : List Nat) : Option UInt32 :=
  terms.foldlM (fun sum n => addCounts? sum (UInt32.ofNat n)) 0

def wrappedSum (terms : List Nat) : UInt32 := terms.foldl (fun sum n => sum + UInt32.ofNat n) 0

theorem wrappedSum_eq (terms : List Nat) : wrappedSum terms = UInt32.ofNat terms.sum := by
  suffices h : ∀ a : UInt32, terms.foldl (fun sum n => sum + UInt32.ofNat n) a =
      a + UInt32.ofNat terms.sum from (h 0).trans (UInt32.zero_add _)
  induction terms with
  | nil => exact fun a => (UInt32.add_zero a).symm
  | cons n terms ih =>
    intro a
    rw [List.foldl_cons, ih, List.sum_cons, UInt32.ofNat_add, UInt32.add_assoc]

theorem checkedSum?_eq_some {terms : List Nat} {count : UInt32} (h : terms.sum ≤ count.toNat) :
    checkedSum? terms = some (UInt32.ofNat terms.sum) := by
  have hcount := count.toNat_lt
  have hterms : terms.map (fun n => (UInt32.ofNat n).toNat) = terms := by
    refine (List.map_congr_left fun n hn => ?_).trans (List.map_id terms)
    have hle : n ≤ terms.sum := List.le_sum_of_mem hn
    exact Nat.mod_eq_of_lt (by omega)
  have hsum : (UInt32.ofNat terms.sum).toNat = terms.sum := Nat.mod_eq_of_lt (by omega)
  rw [checkedSum?, foldlM_addCounts?_eq_some, hterms, hsum]
  exact Nat.zero_add _

/-- Terms that add up to a sum of at most `limit`, in whatever way words are added. -/
structure AddsUp (limit : UInt32) (terms : List Nat) (sum : Nat) : Prop where
  total : terms.sum = sum
  le : sum ≤ limit.toNat
  checked : checkedSum? terms = some (UInt32.ofNat sum)
  wrapped : wrappedSum terms = UInt32.ofNat sum

theorem addsUp_of_le {limit : UInt32} {terms : List Nat} {sum : Nat} (htotal : terms.sum = sum)
    (hle : sum ≤ limit.toNat) : AddsUp limit terms sum := by
  subst htotal
  exact ⟨rfl, hle, checkedSum?_eq_some hle, wrappedSum_eq terms⟩

end OrderBook

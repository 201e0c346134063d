import Mathlib.Data.List.Sort
import OrderBook.Query.Basic

/-!
Results of queries. The positions of items are ordered, and items with different ids have different
positions, so the items that a query selects stand in one strict order. Those behind an item are the
results of the query that starts after it.
-/

namespace OrderBook

instance : Std.TransOrd SortValue where
  eq_swap {a b} := by
    cases a with
    | time t =>
      cases b with
      | time u => exact Std.OrientedOrd.eq_swap (α := UInt64)
      | id s => rfl
    | id s =>
      cases b with
      | time u => rfl
      | id r => exact Std.OrientedOrd.eq_swap (α := String)
  isLE_trans {a b c} hab hbc := by
    cases a with
    | time t =>
      cases c with
      | id s => rfl
      | time v =>
        cases b with
        | time u => exact Std.TransOrd.isLE_trans (α := UInt64) hab hbc
        | id s => cases hbc
    | id s =>
      cases b with
      | time u => cases hab
      | id r =>
        cases c with
        | time v => cases hbc
        | id q => exact Std.TransOrd.isLE_trans (α := String) hab hbc

namespace Cursor

instance : Std.TransOrd Cursor :=
  inferInstanceAs (Std.TransCmp (compareLex (compareOn Cursor.values) (compareOn Cursor.itemId)))

theorem itemId_of_compare_eq {a b : Cursor} (h : compare a b = .eq) : a.itemId = b.itemId :=
  Std.LawfulEqOrd.eq_of_compare (Ordering.then_eq_eq.1 h).2

end Cursor

namespace CandidateQuery

variable {q : CandidateQuery} {items : List OrderItem} {i j : OrderItem}

def Before (q : CandidateQuery) (i j : OrderItem) : Prop := compare (q.position i) (q.position j) = .lt

instance : DecidableRel q.Before := fun i j =>
  inferInstanceAs (Decidable (compare (q.position i) (q.position j) = .lt))

theorem Before.not_before (h : q.Before i j) : ¬ q.Before j i := Std.OrientedCmp.not_lt_of_lt h

theorem not_before_self (q : CandidateQuery) (i : OrderItem) : ¬ q.Before i i := fun h => h.not_before h

theorem mem_results : i ∈ q.results items ↔ i ∈ items ∧ q.selects i = true := by
  rw [results, List.mem_mergeSort, List.mem_filter]

theorem results_eq_filter (h : (items.filter q.selects).Pairwise fun i j =>
    (compare (q.position i) (q.position j)).isLE = true) : q.results items = items.filter q.selects :=
  List.mergeSort_of_pairwise h

theorem length_results_le (q : CandidateQuery) (items : List OrderItem) :
    (q.results items).length ≤ items.length := by
  rw [results, List.length_mergeSort]
  exact List.length_filter_le _ _

theorem results_ascending (hids : (items.map (·.id)).Nodup) : (q.results items).Pairwise q.Before := by
  have hsorted : (q.results items).Pairwise fun i j =>
      (compare (q.position i) (q.position j)).isLE = true := by
    refine List.pairwise_mergeSort ?_ ?_ _
    · intro i j k hij hjk
      exact Std.TransOrd.isLE_trans hij hjk
    · intro i j
      have hswap : compare (q.position j) (q.position i) =
          (compare (q.position i) (q.position j)).swap := Std.OrientedOrd.eq_swap
      rw [hswap]
      cases compare (q.position i) (q.position j) <;> rfl
  have hperm : (q.results items).Perm (items.filter q.selects) := List.mergeSort_perm _ _
  have hdistinct : (q.results items).Pairwise fun i j => i.id ≠ j.id := by
    refine List.pairwise_map.1 ((hperm.map OrderItem.id).nodup_iff.2 ?_)
    exact hids.sublist (List.filter_sublist.map _)
  refine (hsorted.and hdistinct).imp fun {i j} h => ?_
  cases Ordering.isLE_iff_eq_lt_or_eq_eq.1 h.1 with
  | inl hlt => exact hlt
  | inr heq => exact absurd (Cursor.itemId_of_compare_eq heq) h.2

theorem eq_of_ascending {l m : List OrderItem} (hl : l.Pairwise q.Before) (hm : m.Pairwise q.Before)
    (h : ∀ i, i ∈ l ↔ i ∈ m) : l = m := by
  have : Std.Irrefl q.Before := ⟨q.not_before_self⟩
  have : Std.Antisymm q.Before := ⟨fun _ _ hij hji => absurd hji hij.not_before⟩
  exact hl.eq_of_mem_iff hm h

theorem selects_after (hi : q.selects i = true) (j : OrderItem) :
    (q.after (q.position i)).selects j = true ↔ q.selects j = true ∧ q.Before i j := by
  have hafter : (q.after (q.position i)).selects j = true ↔
      q.matchesItem j = true ∧ q.Before i j := by
    rw [selects, Bool.and_eq_true]
    refine and_congr_right fun _ => ?_
    exact Ordering.isLT_iff_eq_lt
  rw [hafter, selects, Bool.and_eq_true, and_assoc]
  refine and_congr_right fun _ => ⟨fun h => ⟨?_, h⟩, fun h => h.2⟩
  -- An item behind a selected one is behind the start of the result too.
  have hi := (Bool.and_eq_true_iff.1 hi).2
  rw [isAfterCursor] at hi ⊢
  cases hc : q.startAfter with
  | none => rfl
  | some c =>
    rw [hc] at hi
    exact Ordering.isLT_iff_eq_lt.2 (Std.TransCmp.lt_trans (Ordering.isLT_iff_eq_lt.1 hi) h)

/-- The results after an item are those that lie behind it. -/
theorem results_after (hids : (items.map (·.id)).Nodup) {before rest : List OrderItem}
    (h : q.results items = before ++ i :: rest) : (q.after (q.position i)).results items = rest := by
  have hasc := results_ascending (q := q) hids
  have hi : q.selects i = true := (mem_results.1 (h ▸ List.mem_append_right _ List.mem_cons_self)).2
  rw [h] at hasc
  obtain ⟨-, hrest, hbefore⟩ := List.pairwise_append.1 hasc
  obtain ⟨hbehind, hrest⟩ := List.pairwise_cons.1 hrest
  refine eq_of_ascending (q := q) (results_ascending (q := q.after (q.position i)) hids) hrest fun j => ?_
  rw [mem_results, selects_after hi, ← and_assoc, ← mem_results, h, List.mem_append, List.mem_cons]
  constructor
  · intro ⟨hj, hij⟩
    rcases hj with hj | rfl | hj
    · exact absurd (hbefore j hj i List.mem_cons_self) hij.not_before
    · exact absurd hij (q.not_before_self j)
    · exact hj
  · exact fun hj => ⟨.inr (.inr hj), hbehind j hj⟩

end CandidateQuery

end OrderBook

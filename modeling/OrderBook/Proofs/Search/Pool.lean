import Mathlib.Data.List.Nodup
import OrderBook.Search.OneToMany

/-!
The pool of a one-to-many search: the candidates of one token on the other side, apart from the root,
by age and then by id.
-/

namespace OrderBook

section Stable

variable {α : Type} {le : α → α → Bool}

theorem filter_append_of_split {below above : List α} {q : α → Bool} (hbelow : ∀ b ∈ below, q b = true)
    (habove : ∀ b ∈ above, q b = false) : (below ++ above).filter q = below := by
  rw [List.filter_append, List.filter_eq_self.2 hbelow]
  rw [List.filter_eq_nil_iff.2 fun b hb => by simp [habove b hb], List.append_nil]

/-- Sorting keeps the order of equals, so what is left out may be left out before or after. -/
theorem filter_mergeSort (htrans : ∀ a b c, le a b = true → le b c = true → le a c = true)
    (htotal : ∀ a b, (le a b || le b a) = true) (q : α → Bool) (l : List α) :
    (l.mergeSort le).filter q = (l.filter q).mergeSort le := by
  induction l with
  | nil => simp
  | cons a l ih =>
    obtain ⟨below, above, hsorted, hrest, hbelow⟩ := List.mergeSort_cons htrans htotal a l
    rw [hrest, List.filter_append] at ih
    cases hq : q a with
    | false =>
      rw [hsorted, List.filter_append, List.filter_cons_of_neg (by simp [hq]), ih,
        List.filter_cons_of_neg (by simp [hq])]
    | true =>
      rw [hsorted, List.filter_append, List.filter_cons_of_pos hq, List.filter_cons_of_pos hq]
      obtain ⟨below', above', hsorted', hrest', hbelow'⟩ :=
        List.mergeSort_cons htrans htotal a (l.filter q)
      -- Both are split at `a`: what stands before it is not above it, and what comes after is.
      have habove : ∀ b ∈ above, (!le a b) = false := by
        have hpairs := List.pairwise_mergeSort htrans htotal (a :: l)
        rw [hsorted] at hpairs
        intro b hb
        simp [(List.pairwise_cons.1 (List.pairwise_append.1 hpairs).2.1).1 b hb]
      have habove' : ∀ b ∈ above', (!le a b) = false := by
        have hpairs := List.pairwise_mergeSort htrans htotal (a :: l.filter q)
        rw [hsorted'] at hpairs
        intro b hb
        simp [(List.pairwise_cons.1 (List.pairwise_append.1 hpairs).2.1).1 b hb]
      have hsame : below.filter q ++ above.filter q = below' ++ above' := ih.trans hrest'
      have hfirst : below.filter q = below' := by
        rw [← filter_append_of_split hbelow' habove', ← hsame]
        refine (filter_append_of_split ?_ ?_).symm
        · exact fun b hb => hbelow b (List.mem_of_mem_filter hb)
        · exact fun b hb => habove b (List.mem_of_mem_filter hb)
      rw [hfirst] at hsame
      rw [hsorted', hfirst, List.append_cancel_left hsame]

end Stable

namespace OneToMany

theorem isPoolCandidate_iff {root c : ResolvedOrder} :
    isPoolCandidate root c = true ↔ c.order.numItems = 1 ∧
      c.order.side = root.order.side.opposite ∧ c.id ≠ root.id := by
  simp [isPoolCandidate, and_assoc]

def byAge : ResolvedOrder → ResolvedOrder → Ordering :=
  compareLex (compareOn (·.order.startTime)) (compareOn (·.id))

theorem isOlder_eq (a b : ResolvedOrder) : isOlder a b = (byAge a b).isLE := rfl

instance : Std.TransCmp byAge := inferInstanceAs (Std.TransCmp (compareLex _ _))

theorem isOlder_trans {a b c : ResolvedOrder} (h : isOlder a b = true) (k : isOlder b c = true) :
    isOlder a c = true := by
  rw [isOlder_eq] at *
  exact Std.TransCmp.isLE_trans h k

theorem isOlder_total (a b : ResolvedOrder) : (isOlder a b || isOlder b a) = true := by
  have hswap : byAge b a = (byAge a b).swap := Std.OrientedCmp.eq_swap
  rw [isOlder_eq, isOlder_eq, hswap]
  cases byAge a b <;> rfl

theorem mem_poolOf {root c : ResolvedOrder} {candidates : List ResolvedOrder} :
    c ∈ poolOf root candidates ↔ c ∈ candidates ∧ isPoolCandidate root c = true := by
  rw [poolOf, List.mem_mergeSort, List.mem_filter]

theorem perm_poolOf (root : ResolvedOrder) (candidates : List ResolvedOrder) :
    (poolOf root candidates).Perm (candidates.filter (isPoolCandidate root)) :=
  List.mergeSort_perm _ _

theorem ascending_poolOf (root : ResolvedOrder) (candidates : List ResolvedOrder) :
    (poolOf root candidates).Pairwise fun a b => isOlder a b = true := by
  rw [poolOf]
  exact @List.pairwise_mergeSort _ isOlder (fun _ _ _ => isOlder_trans) isOlder_total _

theorem poolOf_eq_filter {root : ResolvedOrder} {candidates : List ResolvedOrder}
    (h : (candidates.filter (isPoolCandidate root)).Pairwise fun a b => isOlder a b = true) :
    poolOf root candidates = candidates.filter (isPoolCandidate root) := by
  rw [poolOf]
  exact List.mergeSort_of_pairwise h

theorem poolOf_eq_self {root : ResolvedOrder} {candidates : List ResolvedOrder}
    (hpool : ∀ c ∈ candidates, isPoolCandidate root c = true)
    (hage : candidates.Pairwise fun a b => isOlder a b = true) :
    poolOf root candidates = candidates := by
  have hfilter := List.filter_eq_self.2 hpool
  rw [poolOf_eq_filter (hfilter.symm ▸ hage), hfilter]

theorem filter_poolOf (root : ResolvedOrder) (keep : ResolvedOrder → Bool)
    (candidates : List ResolvedOrder) :
    (poolOf root candidates).filter keep = poolOf root (candidates.filter keep) := by
  rw [poolOf, poolOf, @filter_mergeSort _ isOlder (fun _ _ _ => isOlder_trans) isOlder_total,
    List.filter_filter, List.filter_filter]
  simp only [Bool.and_comm]

theorem id_eq_of_isOlder {a b : ResolvedOrder} (h : isOlder a b = true) (k : isOlder b a = true) :
    a.id = b.id := by
  have heq : byAge a b = .eq := Std.OrientedCmp.isLE_antisymm h k
  exact Std.LawfulEqOrd.eq_of_compare (Ordering.then_eq_eq.1 heq).2

theorem poolOf_filter {root : ResolvedOrder} {chosen all : List ResolvedOrder}
    {keep : ResolvedOrder → Bool}
    (hids : (all.map (·.id)).Nodup) (h : chosen.Perm (all.filter keep)) :
    poolOf root chosen = (poolOf root all).filter keep := by
  have hperm : (poolOf root chosen).Perm ((poolOf root all).filter keep) := by
    refine (perm_poolOf root chosen).trans ((h.filter _).trans ?_)
    rw [List.filter_filter]
    simp only [Bool.and_comm (isPoolCandidate root _)]
    rw [← List.filter_filter]
    exact ((perm_poolOf root all).filter keep).symm
  have hall : ∀ x ∈ poolOf root chosen, x ∈ all := fun x hx =>
    List.mem_of_mem_filter (h.subset (mem_poolOf.1 hx).1)
  refine hperm.eq_of_pairwise (fun x y hx hy hxy hyx => ?_) (ascending_poolOf root chosen)
    ((ascending_poolOf root all).filter keep)
  refine List.inj_on_of_nodup_map hids (hall x hx) (hall y (hperm.symm.subset hy)) ?_
  exact id_eq_of_isOlder hxy hyx

theorem poolOf_perm {root : ResolvedOrder} {others candidates : List ResolvedOrder}
    (hids : (candidates.map (·.id)).Nodup) (h : others.Perm candidates) :
    poolOf root others = poolOf root candidates := by
  have hall : others.Perm (candidates.filter fun _ => true) := by rwa [List.filter_true]
  have hpool : poolOf root others = (poolOf root candidates).filter fun _ => true :=
    poolOf_filter hids hall
  rwa [List.filter_true] at hpool

end OneToMany

end OrderBook

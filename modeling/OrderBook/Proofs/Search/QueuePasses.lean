import OrderBook.Proofs.Search.ExactFill
import OrderBook.Proofs.Search.ServedLanes

/-!
A pass as a queue. The lanes of a pass over candidates of one token say which of them have taken which
units. Its rounds serve the queue, dropping the main candidate takes the first one out of it, and the
orders that it prices are those that have been served.
-/

namespace OrderBook

-- The zero of sums is the literal.
attribute [local instance (high)] Zero.ofOfNat0

open Queue (served)

variable {chain : PolicyChain} {root : ResolvedOrder} {pool : List ResolvedOrder} {n : Nat}
  {q : Queue} {now : UInt64}

/-- That the root and the orders that fill it meet at a price at `now`. -/
def Clears (root : ResolvedOrder) (s : List (ResolvedOrder × Take)) (now : UInt64) : Prop :=
  ∃ x clearing, root.order.combinedIntersection (s.map (·.1.order)) = .ok (some x) ∧
    x.resolve now = .ok (some clearing)

/-! Who has taken a unit, by position -/

def takers (n : Nat) : Queue → List Nat
  | [] => []
  | (_, none) :: q => takers (n + 1) q
  | (_, some _) :: q => n :: takers (n + 1) q

theorem le_of_mem_takers {i : Nat} (h : i ∈ takers n q) : n ≤ i := by
  induction q generalizing n with
  | nil => cases h
  | cons x q ih =>
    obtain ⟨r, take⟩ := x
    cases take with
    | none => exact Nat.le_of_succ_le (ih h)
    | some t =>
      cases h with
      | head => exact Nat.le_refl _
      | tail _ h => exact Nat.le_of_succ_le (ih h)

theorem pairwise_takers (n : Nat) (q : Queue) : (takers n q).Pairwise (· < ·) := by
  induction q generalizing n with
  | nil => exact .nil
  | cons x q ih =>
    obtain ⟨r, take⟩ := x
    cases take with
    | none => exact ih (n + 1)
    | some t => exact .cons (fun i hi => le_of_mem_takers hi) (ih (n + 1))

theorem mem_takers {i : Nat} :
    i ∈ takers n q ↔ ∃ k r t, i = n + k ∧ q[k]? = some (r, some t) := by
  induction q generalizing n with
  | nil => simp [takers]
  | cons x q ih =>
    obtain ⟨r, take⟩ := x
    constructor
    · intro h
      cases take with
      | none =>
        obtain ⟨k, s, t, rfl, hk⟩ := ih.1 h
        exact ⟨k + 1, s, t, by omega, hk⟩
      | some t =>
        rcases List.mem_cons.1 h with rfl | h
        · exact ⟨0, r, t, rfl, rfl⟩
        · obtain ⟨k, s, u, rfl, hk⟩ := ih.1 h
          exact ⟨k + 1, s, u, by omega, hk⟩
    · rintro ⟨k, s, t, rfl, hk⟩
      cases k with
      | zero =>
        cases hk
        exact List.mem_cons_self
      | succ k =>
        have hlater : n + (k + 1) ∈ takers (n + 1) q := ih.2 ⟨k, s, t, by omega, hk⟩
        cases take with
        | none => exact hlater
        | some u => exact List.mem_cons_of_mem _ hlater

theorem mem_takers_iff (hoffered : ∀ x ∈ served q, x.2 ∈ offers chain root x.1) {i : Nat} :
    i ∈ takers n q ↔ ∃ l ∈ queueLanes chain root n q, l.candidate = i ∧ 0 < l.flow := by
  induction q generalizing n with
  | nil => simp [takers, queueLanes]
  | cons x q ih =>
    obtain ⟨r, take⟩ := x
    cases take with
    | none =>
      rw [takers, ih hoffered]
      constructor
      · rintro ⟨l, hl, h⟩
        exact ⟨l, List.mem_append_right _ hl, h⟩
      · rintro ⟨l, hl, h⟩
        rcases List.mem_append.1 hl with hl | hl
        · obtain ⟨t, -, rfl⟩ := List.mem_map.1 hl
          exact absurd h.2 (Nat.lt_irrefl 0)
        · exact ⟨l, hl, h⟩
    | some t =>
      rw [Queue.served_cons_some] at hoffered
      have ht := hoffered _ List.mem_cons_self
      rw [takers, List.mem_cons, ih fun x hx => hoffered x (List.mem_cons_of_mem _ hx)]
      constructor
      · rintro (rfl | ⟨l, hl, h⟩)
        · refine ⟨t.lane i (some t), List.mem_append_left _ (List.mem_map_of_mem ht), rfl, ?_⟩
          simp [Take.lane]
        · exact ⟨l, List.mem_append_right _ hl, h⟩
      · rintro ⟨l, hl, h⟩
        rcases List.mem_append.1 hl with hl | hl
        · obtain ⟨u, -, rfl⟩ := List.mem_map.1 hl
          exact .inl h.1.symm
        · exact .inr ⟨l, hl, h⟩

theorem filterMap_takers (h : pool.drop n = q.map Prod.fst) :
    (takers n q).filterMap (pool[·]?) = (served q).map Prod.fst := by
  induction q generalizing n with
  | nil => rfl
  | cons x q ih =>
    obtain ⟨r, take⟩ := x
    have hget : pool[n]? = some r := by
      rw [← Nat.add_zero n, ← List.getElem?_drop, h]
      rfl
    have hnext : pool.drop (n + 1) = q.map Prod.fst := by
      rw [← List.drop_drop, h]
      rfl
    cases take with
    | none => exact ih hnext
    | some t =>
      rw [takers, List.filterMap_cons_some hget, ih hnext]
      rfl

namespace FlowPass

variable {p : FlowPass}

/-- A pass whose lanes say which candidates of a queue have taken which units. -/
structure Follows (chain : PolicyChain) (root : ResolvedOrder) (pool : List ResolvedOrder) (n : Nat)
    (q : Queue) (p : FlowPass) : Prop where
  sound : Sound chain root pool p
  stands : StandsIn pool n q
  fair : q.Fair chain root
  lanes : p.lanes = queueLanes chain root n q

theorem follows_build (hroot : root.isEligibleRoot = true) (hpool : ∀ r ∈ pool, r.order.numItems = 1)
    (hp : build chain root pool = .ok p) : Follows chain root pool 0 (.ofPool pool) p := by
  have hpos := ResolvedOrder.numItems_pos hroot
  refine ⟨sound_build hp, ⟨?_, hpool⟩, .ofPool pool, ?_⟩
  · rw [Queue.ofPool, List.map_map, List.drop_zero]
    exact (List.map_id pool).symm
  · rw [lanes_build hp, builtLanes_eq hpos hpool]

namespace Follows

theorem afterRound (f : Follows chain root pool n q p) (hroot : root.isEligibleRoot = true) :
    Follows chain root pool n (serve chain root [] q) p.afterRound ∧
      p.graph.pushFlow.2 + (served q).length = (served (serve chain root [] q)).length := by
  have hfair : Queue.Fair chain root ([] ++ q) := f.fair
  obtain ⟨pushed, hround, hcount⟩ := roundLanes_queueLanes hroot hfair f.stands
  obtain ⟨hlanes, hpushed⟩ := f.sound.lanes_afterRound
  rw [f.lanes] at hlanes hpushed
  have hround : roundLanes root pool [] (queueLanes chain root n q) =
      (queueLanes chain root n (serve chain root [] q), pushed) := hround
  rw [hround] at hlanes hpushed
  refine ⟨⟨f.sound.afterRound, ⟨?_, f.stands.single⟩, f.fair.serve, hlanes⟩, ?_⟩
  · rw [map_fst_serve]
    exact f.stands.drop
  · rw [hpushed]
    exact hcount

theorem dropMain {x : ResolvedOrder × Option Take} (f : Follows chain root pool 0 (x :: q) p) :
    Follows chain root pool 1 q p.dropMain := by
  refine ⟨f.sound.dropMain, ⟨?_, f.stands.single⟩, f.fair.tail, ?_⟩
  · rw [← Nat.zero_add 1, ← List.drop_drop, f.stands.drop]
    rfl
  · rw [f.sound.lanes_dropMain, f.lanes, queueLanes, List.filter_append]
    have hmain : (entryLanes chain root 0 x).filter (fun l => decide (l.candidate ≠ 0)) = [] := by
      refine List.filter_eq_nil_iff.2 fun l hl => ?_
      obtain ⟨t, -, rfl⟩ := List.mem_map.1 hl
      simp [Take.lane]
    have hothers : (queueLanes chain root 1 q).filter (fun l => decide (l.candidate ≠ 0)) =
        queueLanes chain root 1 q := by
      refine List.filter_eq_self.2 fun l hl => ?_
      have := (candidate_of_mem hl).1
      simp
      omega
    rw [hmain, hothers, List.nil_append]

theorem pushed_dropMain (f : Follows chain root pool 1 q p) :
    p.dropMain.graph.pushFlow.2 = p.graph.pushFlow.2 := by
  refine f.sound.dropMain.pushed_congr f.sound ?_
  rw [f.sound.lanes_dropMain]
  refine List.filter_eq_self.2 fun l hl => ?_
  rw [f.lanes] at hl
  have := (candidate_of_mem hl).1
  simp
  omega

theorem sum_received (f : Follows chain root pool n q p) :
    (p.engaged.map p.received).sum = (served q).length := by
  rw [f.sound.sum_received, f.lanes, sumWhere_queueLanes f.fair.offered n fun _ => true,
    List.countP_true]

theorem engaged (f : Follows chain root pool n q p) : p.engaged = takers n q := by
  have hascending : p.engaged.Pairwise (· < ·) := List.pairwise_lt_range.filter _
  refine hascending.eq_of_mem_iff (pairwise_takers n q) fun i => ?_
  rw [f.sound.engaged_iff, f.lanes, mem_takers_iff f.fair.offered]

theorem chosenFrom (f : Follows chain root pool n q p) :
    p.chosenFrom pool = (served q).map Prod.fst := by
  rw [FlowPass.chosenFrom, f.engaged, filterMap_takers f.stands.drop]

theorem clearing_iff (f : Follows chain root pool n q p) :
    (∃ clearing, p.clearing? p.engaged now = .ok (some clearing)) ↔ Clears root (served q) now := by
  have horders : p.opposingOrders p.engaged = (served q).map (·.1.order) := by
    rw [f.sound.opposingOrders_eq, f.chosenFrom, List.map_map]
    rfl
  rw [clearing?, f.sound.sameRoot, horders, Clears]
  constructor
  · rintro ⟨clearing, h⟩
    obtain ⟨found, hfound, h⟩ := bind_eq_ok.1 h
    cases found with
    | none => cases h
    | some x => exact ⟨x, clearing, hfound, h⟩
  · rintro ⟨x, clearing, hfound, h⟩
    exact ⟨clearing, bind_eq_ok.2 ⟨some x, hfound, h⟩⟩

theorem step_eq (f : Follows chain root pool n q p) (hroot : root.isEligibleRoot = true)
    (now : UInt64) : p.step now =
      if (served (serve chain root [] q)).length = (served q).length then .ok .exhausted
      else if (served (serve chain root [] q)).length = root.order.numItems.toNat then
        p.afterRound.settle p.afterRound.engaged now
      else .ok (.more p.afterRound) := by
  obtain ⟨g, hpushed⟩ := f.afterRound hroot
  have hzero : p.graph.pushFlow.2 = 0 ↔
      (served (serve chain root [] q)).length = (served q).length := by omega
  rw [f.sound.step_eq f.stands.single, g.sum_received, g.sound.layout.root.numItems_eq]
  simp only [hzero]

end Follows

end FlowPass

end OrderBook

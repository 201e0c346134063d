import Mathlib.Data.List.Sort
import OrderBook.Proofs.Search.Rounds
import OrderBook.Proofs.Search.Runs

/-!
Passes over a pool and over a part of it. When the candidates left out have no lanes, the two passes
have the same lanes up to the positions of the candidates, and then they go through the same rounds
and find the same records.
-/

namespace OrderBook

-- The zero of sums is the literal.
attribute [local instance (high)] Zero.ofOfNat0

/-- A pool inside another one: the candidate at `j` of `small` stands at `f j` of `pool`. -/
structure Embeds (f : Nat → Nat) (pool small : List ResolvedOrder) : Prop where
  ascending : StrictMono f
  getElem? : ∀ j, pool[f j]? = small[j]?

def Lane.rename (f : Nat → Nat) (l : Lane) : Lane := { l with candidate := f l.candidate }

namespace Embeds

variable {f : Nat → Nat} {pool small : List ResolvedOrder} {root : ResolvedOrder}

theorem mem (h : Embeds f pool small) {r : ResolvedOrder} (hr : r ∈ small) : r ∈ pool := by
  obtain ⟨j, hj⟩ := List.mem_iff_getElem?.1 hr
  exact List.mem_of_getElem? ((h.getElem? j).trans hj)

theorem sumWhere_rename (h : Embeds f pool small) (lanes : List Lane) (j : Nat) :
    sumWhere (·.candidate = f j) (·.flow) (lanes.map (Lane.rename f)) =
      sumWhere (·.candidate = j) (·.flow) lanes := by
  rw [sumWhere_map]
  refine sumWhere_congr fun l _ => ?_
  simp only [Lane.rename, h.ascending.injective.eq_iff]

theorem supply_rename (lanes : List Lane) (l : Lane) :
    (l.rename f).supply root (lanes.map (Lane.rename f)) = l.supply root lanes := by
  simp only [Lane.supply, sumWhere_map, Lane.rename]
  rfl

theorem demand_rename (h : Embeds f pool small) (lanes : List Lane) (l : Lane) :
    (l.rename f).demand pool (lanes.map (Lane.rename f)) = l.demand small lanes := by
  simp only [Lane.demand, Lane.rename, h.getElem?, sumWhere_map, h.ascending.injective.eq_iff]

theorem fitting_rename (h : Embeds f pool small) (lanes : List Lane) (l : Lane) :
    (l.rename f).fitting root pool (lanes.map (Lane.rename f)) = l.fitting root small lanes := by
  rw [Lane.fitting, supply_rename, h.demand_rename]
  rfl

theorem roundLanes_rename (h : Embeds f pool small) (root : ResolvedOrder) (done todo : List Lane) :
    roundLanes root pool (done.map (Lane.rename f)) (todo.map (Lane.rename f)) =
      ((roundLanes root small done todo).1.map (Lane.rename f), (roundLanes root small done todo).2) := by
  induction todo generalizing done with
  | nil => rfl
  | cons l todo ih =>
    have hall : done.map (Lane.rename f) ++ l.rename f :: todo.map (Lane.rename f) =
        (done ++ l :: todo).map (Lane.rename f) := by
      rw [List.map_append, List.map_cons]
    have hnext : ∀ n, done.map (Lane.rename f) ++ [(l.rename f).addFlow n] =
        (done ++ [l.addFlow n]).map (Lane.rename f) := by
      intro n
      rw [List.map_append]
      rfl
    simp only [List.map_cons, roundLanes, hall, h.fitting_rename, hnext, ih]

end Embeds

def Lane.itemEdge? (root : ResolvedOrder) (pool : List ResolvedOrder) (l : Lane) : Option ItemEdge := do
  let a ← root.items[l.item]?
  let r ← pool[l.candidate]?
  let b ← r.items[l.part]?
  return ⟨a, b, UInt32.ofNat l.flow⟩

theorem Embeds.itemEdge?_rename {f : Nat → Nat} {pool small : List ResolvedOrder}
    {root : ResolvedOrder} (h : Embeds f pool small) (l : Lane) :
    (l.rename f).itemEdge? root pool = l.itemEdge? root small := by
  simp only [Lane.itemEdge?, Lane.rename, h.getElem?]

namespace FlowPass

variable {chain : PolicyChain} {root : ResolvedOrder} {f : Nat → Nat}
  {pool small : List ResolvedOrder} {p q : FlowPass} {now : UInt64}

theorem Sound.itemEdges_eq (s : Sound chain root pool p) :
    p.itemEdges = (p.lanes.filter fun l => 0 < l.flow).filterMap (Lane.itemEdge? root pool) := by
  rw [itemEdges, FlowGraph.carrying, lanes, List.filter_map, List.filterMap_map]
  refine List.filterMap_congr fun x hx => ?_
  have b := s.bears (FlowGraph.mem_entries.1 (List.mem_of_mem_filter hx))
  obtain ⟨a, ha, hsource⟩ := s.item b
  obtain ⟨r, c, hr, hc, htarget⟩ := s.part b
  obtain ⟨y, hy, rfl⟩ := Option.map_eq_some_iff.1 hsource
  obtain ⟨z, hz, rfl⟩ := Option.map_eq_some_iff.1 htarget
  simp only [Function.comp_apply, Lane.itemEdge?, hy, hz, ha, hr, hc, Option.bind_eq_bind,
    Option.bind_some]
  rfl

/-- Two passes with the same lanes, up to the positions of the candidates. -/
structure Twins (chain : PolicyChain) (root : ResolvedOrder) (f : Nat → Nat)
    (pool small : List ResolvedOrder) (p q : FlowPass) : Prop where
  embeds : Embeds f pool small
  left : Sound chain root pool p
  right : Sound chain root small q
  lanes : p.lanes = q.lanes.map (Lane.rename f)

namespace Twins

theorem pushed (t : Twins chain root f pool small p q) :
    p.graph.pushFlow.2 = q.graph.pushFlow.2 := by
  have h := t.embeds.roundLanes_rename root [] q.lanes
  rw [List.map_nil, ← t.lanes] at h
  rw [t.left.lanes_afterRound.2, t.right.lanes_afterRound.2, h]

theorem afterRound (t : Twins chain root f pool small p q) :
    Twins chain root f pool small p.afterRound q.afterRound := by
  refine ⟨t.embeds, t.left.afterRound, t.right.afterRound, ?_⟩
  have h := t.embeds.roundLanes_rename root [] q.lanes
  rw [List.map_nil, ← t.lanes] at h
  rw [t.left.lanes_afterRound.1, t.right.lanes_afterRound.1, h]

theorem received (t : Twins chain root f pool small p q) (j : Nat) :
    p.received (f j) = q.received j := by
  rw [t.left.received_eq, t.right.received_eq, t.lanes, t.embeds.sumWhere_rename]

theorem engaged (t : Twins chain root f pool small p q) : p.engaged = q.engaged.map f := by
  have ascending : ∀ r : FlowPass, r.engaged.Pairwise (· < ·) := fun r =>
    List.pairwise_lt_range.filter _
  refine (ascending p).eq_of_mem_iff
    ((ascending q).map f fun i j hij => t.embeds.ascending hij) fun i => ?_
  rw [t.left.engaged_iff, t.lanes, List.mem_map]
  constructor
  · intro ⟨l, hl, hi, hflow⟩
    obtain ⟨m, hm, rfl⟩ := List.mem_map.1 hl
    exact ⟨m.candidate, t.right.engaged_iff.2 ⟨m, hm, rfl, hflow⟩, hi⟩
  · intro ⟨j, hj, hi⟩
    obtain ⟨m, hm, rfl, hflow⟩ := t.right.engaged_iff.1 hj
    exact ⟨m.rename f, List.mem_map_of_mem hm, hi, hflow⟩

theorem opposingOrders (t : Twins chain root f pool small p q) :
    p.opposingOrders p.engaged = q.opposingOrders q.engaged := by
  rw [t.left.opposingOrders_eq, t.right.opposingOrders_eq, chosenFrom, chosenFrom, t.engaged,
    List.filterMap_map]
  refine congrArg _ (List.filterMap_congr fun j _ => t.embeds.getElem? j)

theorem itemEdges (t : Twins chain root f pool small p q) : p.itemEdges = q.itemEdges := by
  rw [t.left.itemEdges_eq, t.right.itemEdges_eq, t.lanes, List.filter_map, List.filterMap_map]
  exact List.filterMap_congr fun l _ => t.embeds.itemEdge?_rename l

theorem filled (t : Twins chain root f pool small p q) :
    (p.engaged.map p.received).sum = p.rootNodes.numItems ↔
      (q.engaged.map q.received).sum = q.rootNodes.numItems := by
  have hreceived : p.engaged.map p.received = q.engaged.map q.received := by
    rw [t.engaged, List.map_map]
    exact List.map_congr_left fun j _ => t.received j
  rw [hreceived, t.left.layout.root.numItems_eq, t.right.layout.root.numItems_eq]

theorem clearing? (t : Twins chain root f pool small p q) (now : UInt64) :
    p.clearing? p.engaged now = q.clearing? q.engaged now := by
  rw [FlowPass.clearing?, FlowPass.clearing?, t.left.sameRoot, t.right.sameRoot, t.opposingOrders]

theorem dropMain (t : Twins chain root f pool small p q) (hf : f 0 = 0) :
    Twins chain root f pool small p.dropMain q.dropMain := by
  refine ⟨t.embeds, t.left.dropMain, t.right.dropMain, ?_⟩
  rw [t.left.lanes_dropMain, t.right.lanes_dropMain, t.lanes, List.filter_map]
  refine congrArg _ (List.filter_congr fun l _ => ?_)
  have hzero := t.embeds.ascending.injective.eq_iff (a := l.candidate) (b := 0)
  rw [hf] at hzero
  simp only [Function.comp_apply, Lane.rename, ne_eq, hzero]

theorem lanes_dropMain (t : Twins chain root f pool small p q) (hf : ∀ j, f j ≠ 0) :
    p.dropMain.lanes = p.lanes := by
  rw [t.left.lanes_dropMain]
  refine List.filter_eq_self.2 fun l hl => ?_
  rw [t.lanes] at hl
  obtain ⟨m, -, rfl⟩ := List.mem_map.1 hl
  exact decide_eq_true (hf m.candidate)

end Twins

/-! Steps -/

def recordAt (p : FlowPass) (clearing : ClearingPrice) : OneToManyMatch :=
  .make p.root.order (p.opposingOrders p.engaged) p.itemEdges clearing.price clearing.timestamp

theorem settle_eq (p : FlowPass) (now : UInt64) : p.settle p.engaged now =
    match (p.clearing? p.engaged now).forgive with
    | .error e => .error e
    | .ok none => .ok (.more p.dropMain)
    | .ok (some clearing) => .ok (.found (p.recordAt clearing) p) := by
  rw [settle]
  cases (p.clearing? p.engaged now).forgive with
  | error e => rfl
  | ok clearing =>
    cases clearing with
    | none => rfl
    | some c => rfl

theorem Sound.step_eq (s : Sound chain root pool p) (hpool : ∀ r ∈ pool, r.order.numItems = 1)
    (now : UInt64) : p.step now =
      if p.graph.pushFlow.2 = 0 then .ok .exhausted
      else if (p.afterRound.engaged.map p.afterRound.received).sum = p.afterRound.rootNodes.numItems then
        p.afterRound.settle p.afterRound.engaged now
      else .ok (.more p.afterRound) := by
  have hstep : p.step now =
      if p.graph.pushFlow.2 = 0 then .ok .exhausted else p.afterRound.follow now := rfl
  have hfollow : p.afterRound.follow now =
      if (p.afterRound.engaged.map p.afterRound.received).sum = p.afterRound.rootNodes.numItems then
        p.afterRound.settle p.afterRound.engaged now
      else .ok (.more p.afterRound) := by
    rw [follow, s.afterRound.judge_eq hpool]
    split
    · rfl
    · rfl
  rw [hstep, hfollow]

theorem Twins.recordAt (t : Twins chain root f pool small p q) (clearing : ClearingPrice) :
    p.recordAt clearing = q.recordAt clearing := by
  rw [FlowPass.recordAt, FlowPass.recordAt, t.left.sameRoot, t.right.sameRoot, t.opposingOrders,
    t.itemEdges]

/-- Steps that lead to the same, and to passes in a relation. -/
inductive Alike (related : FlowPass → FlowPass → Prop) : Result Step → Result Step → Prop
  | failed (e : MatchError) : Alike related (.error e) (.error e)
  | exhausted : Alike related (.ok .exhausted) (.ok .exhausted)
  | more {p q : FlowPass} : related p q → Alike related (.ok (.more p)) (.ok (.more q))
  | found (record : OneToManyMatch) {p q : FlowPass} :
    related p q → Alike related (.ok (.found record p)) (.ok (.found record q))

theorem Twins.step (t : Twins chain root f pool small p q) (hf : f 0 = 0)
    (hpool : ∀ r ∈ pool, r.order.numItems = 1) (now : UInt64) :
    Alike (Twins chain root f pool small) (p.step now) (q.step now) := by
  have u := t.afterRound
  rw [t.left.step_eq hpool, t.right.step_eq fun r hr => hpool r (t.embeds.mem hr), t.pushed,
    settle_eq, settle_eq, u.clearing?]
  simp only [u.filled]
  split
  · exact .exhausted
  · split
    · cases (q.afterRound.clearing? q.afterRound.engaged now).forgive with
      | error e => exact .failed e
      | ok clearing =>
        cases clearing with
        | none => exact .more (u.dropMain hf)
        | some c =>
          simp only [u.recordAt]
          exact .found _ u
    · exact .more u

theorem Twins.step_failed (t : Twins chain root f pool small p q)
    (hpool : ∀ r ∈ pool, r.order.numItems = 1) {now : UInt64} {e : MatchError}
    (h : p.step now = .error e) : q.step now = .error e := by
  have u := t.afterRound
  rw [t.left.step_eq hpool, t.pushed, settle_eq, u.clearing?] at h
  rw [t.right.step_eq fun r hr => hpool r (t.embeds.mem hr), settle_eq]
  simp only [u.filled] at h
  split at h
  · cases h
  · rename_i hpushed
    split at h
    · rename_i hfilled
      rw [if_neg hpushed, if_pos hfilled]
      cases hc : (q.afterRound.clearing? q.afterRound.engaged now).forgive with
      | error e' =>
        rw [hc] at h
        exact h
      | ok clearing =>
        rw [hc] at h
        cases clearing with
        | none => cases h
        | some c => cases h
    · cases h

/-- A step of a pass after which nothing more flows, beside the first step of another pass: a record
that it finds is found there too. -/
inductive Idles (q : FlowPass) (now : UInt64) : Result Step → Prop
  | failed (e : MatchError) : Idles q now (.error e)
  | exhausted : Idles q now (.ok .exhausted)
  | more {p : FlowPass} : p.graph.pushFlow.2 = 0 → Idles q now (.ok (.more p))
  | found (record : OneToManyMatch) {p r : FlowPass} : p.graph.pushFlow.2 = 0 →
    q.step now = .ok (.found record r) → Idles q now (.ok (.found record p))

/-- A pass whose main candidate has no lanes has one round only, which the pass without that
candidate goes through as well. -/
theorem Twins.idles (t : Twins chain root f pool small p q) (hf : ∀ j, f j ≠ 0)
    (hpool : ∀ r ∈ pool, r.order.numItems = 1) (now : UInt64) : Idles q now (p.step now) := by
  have u := t.afterRound
  have hlast : p.afterRound.graph.pushFlow.2 = 0 := t.left.pushed_afterRound
  have hright := t.right.step_eq (fun r hr => hpool r (t.embeds.mem hr)) now
  rw [settle_eq] at hright
  rw [t.left.step_eq hpool, t.pushed, settle_eq, u.clearing?]
  simp only [u.filled]
  split
  · exact .exhausted
  · rename_i hpushed
    rw [if_neg hpushed] at hright
    split
    · rename_i hfilled
      rw [if_pos hfilled] at hright
      cases hc : (q.afterRound.clearing? q.afterRound.engaged now).forgive with
      | error e => exact .failed e
      | ok clearing =>
        cases clearing with
        | none =>
          refine .more ?_
          rw [u.left.dropMain.pushed_congr u.left (u.lanes_dropMain hf)]
          exact hlast
        | some c =>
          simp only [hc, ← u.recordAt] at hright
          exact .found _ hlast hright
    · exact .more hlast

end FlowPass

end OrderBook

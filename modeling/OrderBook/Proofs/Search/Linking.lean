import OrderBook.Proofs.Results
import OrderBook.Proofs.Search.Layout

/-!
Linking the root with a pool. The edges that arise are those of the pairs whose items accept each
other and have something to give, in the order of the pairs, and none of them carries flow.
-/

namespace OrderBook

-- The zero of sums is the literal.
attribute [local instance (high)] Zero.ofOfNat0

def PolicyChain.agrees (chain : PolicyChain) (a b : OrderItem) : Bool :=
  match chain.mutualMatch a b with
  | .ok yes => yes
  | .error _ => false

theorem PolicyChain.agrees_iff {chain : PolicyChain} {a b : OrderItem} :
    chain.agrees a b = true ↔ chain.mutualMatch a b = .ok true := by
  rw [agrees]
  split <;> simp [*]

theorem PolicyChain.accepts_of_agrees {chain : PolicyChain} {a b : OrderItem}
    (h : chain.agrees a b = true) : chain.accepts a b = .ok true := by
  obtain ⟨yes, hyes, h⟩ := bind_eq_ok.1 (agrees_iff.1 h)
  cases yes with
  | true => exact hyes
  | false => cases h

namespace FlowPass

/-- What a node can give or take as long as nothing flows. -/
def wholeRoom (g : OrderGraph) (n : Nat) : Nat := g.room n 0 fun _ => 0

def newEdge? (chain : PolicyChain) (g : OrderGraph) (x : Nat × Nat) : Option Edge :=
  match g.node? x.1, g.node? x.2 with
  | some a, some b =>
    let capacity := min (wholeRoom g x.1) (wholeRoom g x.2)
    if chain.agrees a.data b.data && 0 < capacity then some ⟨x.1, x.2, capacity, 0⟩ else none
  | _, _ => none

def Agree (chain : PolicyChain) (g : OrderGraph) (x : Nat × Nat) : Prop :=
  ∃ a b, (g.node? x.1).map (·.data) = some a ∧ (g.node? x.2).map (·.data) = some b ∧
    chain.agrees a b = true

theorem agree_congr {chain : PolicyChain} {g h : OrderGraph} {x : Nat × Nat}
    (f : FlowGraph.SameFrame g h) : Agree chain h x ↔ Agree chain g x := by
  rw [Agree, Agree, f.payload, f.payload]

theorem newEdge?_eq_some {chain : PolicyChain} {g : OrderGraph} {x : Nat × Nat} {e : Edge} :
    newEdge? chain g x = some e ↔
      Agree chain g x ∧ 0 < min (wholeRoom g x.1) (wholeRoom g x.2) ∧
        e = ⟨x.1, x.2, min (wholeRoom g x.1) (wholeRoom g x.2), 0⟩ := by
  rw [newEdge?, Agree]
  cases g.node? x.1 <;> cases g.node? x.2 <;> simp [@eq_comm _ _ e, and_assoc]

theorem linkPair_cases {chain : PolicyChain} {g h : OrderGraph} {x : Nat × Nat}
    (hok : linkPair chain g x.1 x.2 = .ok h) :
    (Agree chain g x ∧ h = (g.link x.1 x.2).1) ∨ (¬ Agree chain g x ∧ h = g) := by
  rw [linkPair] at hok
  cases ha : g.node? x.1 with
  | none =>
    simp only [ha] at hok
    exact .inr ⟨by simp [Agree, ha], (pure_eq_ok.1 hok).symm⟩
  | some a =>
    cases hb : g.node? x.2 with
    | none =>
      simp only [ha, hb] at hok
      exact .inr ⟨by simp [Agree, hb], (pure_eq_ok.1 hok).symm⟩
    | some b =>
      simp only [ha, hb] at hok
      obtain ⟨yes, hyes, hok⟩ := bind_eq_ok.1 hok
      have hagree : Agree chain g x ↔ yes = true := by
        simp [Agree, ha, hb, PolicyChain.agrees, hyes]
      cases yes with
      | false => exact .inr ⟨by simp [hagree], (pure_eq_ok.1 hok).symm⟩
      | true => exact .inl ⟨by simp [hagree], (pure_eq_ok.1 hok).symm⟩

def pairs (sources targets : List Nat) : List (Nat × Nat) :=
  targets.flatMap fun target => sources.map (·, target)

theorem mem_pairs {sources targets : List Nat} {x : Nat × Nat} :
    x ∈ pairs sources targets ↔ x.1 ∈ sources ∧ x.2 ∈ targets := by
  rw [pairs, List.mem_flatMap]
  constructor
  · rintro ⟨t, ht, hx⟩
    obtain ⟨s, hs, rfl⟩ := List.mem_map.1 hx
    exact ⟨hs, ht⟩
  · rintro ⟨hs, ht⟩
    exact ⟨x.2, ht, List.mem_map_of_mem hs⟩

theorem linkAll_eq (chain : PolicyChain) (g : OrderGraph) (sources targets : List Nat) :
    linkAll chain g sources targets =
      (pairs sources targets).foldlM (fun g x => linkPair chain g x.1 x.2) g := by
  rw [linkAll, pairs]
  induction targets generalizing g with
  | nil => rfl
  | cons target targets ih =>
    rw [List.foldlM_cons, List.flatMap_cons, List.foldlM_append, List.foldlM_map]
    exact congrArg _ (funext ih)

theorem nodup_pairs {sources targets : List Nat} (hs : sources.Nodup) (ht : targets.Nodup) :
    (pairs sources targets).Nodup := by
  induction targets with
  | nil => exact List.nodup_nil
  | cons target targets ih =>
    obtain ⟨hmem, ht⟩ := List.nodup_cons.1 ht
    rw [pairs, List.flatMap_cons, List.nodup_append]
    refine ⟨?_, ih ht, ?_⟩
    · exact List.Pairwise.map _ (fun a b hab e => hab (congrArg Prod.fst e)) hs
    · rintro x hx y hy rfl
      obtain ⟨s, -, rfl⟩ := List.mem_map.1 hx
      exact hmem (mem_pairs.1 hy).2

/-- What linking some pairs leaves of a graph without edges. -/
structure Linked (chain : PolicyChain) (g h : OrderGraph) (done : List (Nat × Nat)) : Prop where
  reachable : h.Reachable
  frame : FlowGraph.SameFrame g h
  free : h.edges.free = []
  edges : h.edges.entries.map (·.2) = done.filterMap (newEdge? chain g)

namespace Linked

variable {chain : PolicyChain} {g h : OrderGraph} {done : List (Nat × Nat)}

theorem edge (l : Linked chain g h done) {k : Nat} {e : Edge} (he : h.edge? k = some e) :
    ∃ x ∈ done, newEdge? chain g x = some e := by
  have hm : e ∈ h.edges.entries.map (·.2) :=
    List.mem_map_of_mem (f := (·.2)) (FlowGraph.mem_entries.2 he)
  rw [l.edges] at hm
  exact List.mem_filterMap.1 hm

theorem flow_eq_zero (l : Linked chain g h done) {k : Nat} {e : Edge} (he : h.edge? k = some e) :
    e.flow = 0 := by
  obtain ⟨x, -, hx⟩ := l.edge he
  obtain ⟨-, -, rfl⟩ := newEdge?_eq_some.1 hx
  rfl

theorem flowWhere_eq_zero (l : Linked chain g h done) (p : Edge → Bool) : h.flowWhere p = 0 := by
  have hz : ∀ x ∈ h.edges.entries, (if p x.2 then x.2.flow else 0) = 0 := by
    intro x hx
    rw [l.flow_eq_zero (FlowGraph.mem_entries.1 hx), ite_self]
  rw [FlowGraph.flowWhere, sumWhere]
  rw [List.map_congr_left hz]
  simp

theorem remaining (l : Linked chain g h done) (n : Nat) : h.remaining n = wholeRoom g n := by
  have w := l.reachable.wellFormed
  have hgroups : (fun k => h.groupInflow k + h.groupOutflow k) = fun _ => 0 := by
    funext k
    rw [w.groupInflow_eq, w.groupOutflow_eq, l.flowWhere_eq_zero, l.flowWhere_eq_zero]
  rw [FlowGraph.remaining, wholeRoom]
  rw [w.inflow_eq, w.outflow_eq, l.flowWhere_eq_zero, l.flowWhere_eq_zero, hgroups, l.frame.room]

theorem findEdge?_eq_none (l : Linked chain g h done) {x : Nat × Nat} (hx : x ∉ done) :
    h.findEdge? x.1 x.2 = none := by
  rw [FlowGraph.findEdge?_eq_none l.reachable.wellFormed]
  intro k f hf hs ht
  obtain ⟨y, hy, hfy⟩ := l.edge hf
  obtain ⟨-, -, rfl⟩ := newEdge?_eq_some.1 hfy
  exact hx ((Prod.ext hs ht : y = x) ▸ hy)

theorem skip (l : Linked chain g h done) {x : Nat × Nat} (hnone : newEdge? chain g x = none) :
    Linked chain g h (done ++ [x]) := by
  refine ⟨l.reachable, l.frame, l.free, ?_⟩
  rw [l.edges, List.filterMap_append]
  simp [hnone]

theorem link (l : Linked chain g h done) {x : Nat × Nat} (hagree : Agree chain g x)
    (hl : h.Linkable x.1 x.2) : Linked chain g (h.link x.1 x.2).1 (done ++ [x]) := by
  have hroom := hl.room
  rw [l.remaining, l.remaining] at hroom
  have hnew : newEdge? chain g x = some ⟨x.1, x.2, min (wholeRoom g x.1) (wholeRoom g x.2), 0⟩ :=
    newEdge?_eq_some.2 ⟨hagree, hroom, rfl⟩
  refine ⟨.link x.1 x.2 l.reachable, l.frame.trans (FlowGraph.sameFrame_link h x.1 x.2), ?_, ?_⟩
  · rw [FlowGraph.link_eq_connect hl]
    show (h.edges.insert _).free = []
    exact Arena.free_insert_nil _ l.free
  · rw [FlowGraph.link_eq_connect hl]
    show (h.edges.insert _).entries.map (·.2) = _
    rw [Arena.entries_insert_nil _ l.free, List.map_append, l.edges, List.filterMap_append,
      l.remaining, l.remaining]
    simp [hnew]

end Linked

theorem linked_linkPair {chain : PolicyChain} {g h i : OrderGraph} {done : List (Nat × Nat)}
    {x : Nat × Nat} (l : Linked chain g h done) (hne : x.1 ≠ x.2) (hx : x ∉ done)
    (hok : linkPair chain h x.1 x.2 = .ok i) : Linked chain g i (done ++ [x]) := by
  obtain ⟨hagree, rfl⟩ | ⟨hagree, rfl⟩ := linkPair_cases hok
  · by_cases hl : h.Linkable x.1 x.2
    · exact l.link ((agree_congr l.frame).1 hagree) hl
    · rw [FlowGraph.link_eq_self hl]
      apply l.skip
      refine Option.eq_none_iff_forall_ne_some.2 fun e he => hl ?_
      obtain ⟨-, hroom, -⟩ := newEdge?_eq_some.1 he
      obtain ⟨a, b, ha, hb, -⟩ := hagree
      obtain ⟨y, hy, -⟩ := Option.map_eq_some_iff.1 ha
      obtain ⟨z, hz, -⟩ := Option.map_eq_some_iff.1 hb
      exact ⟨hne, by simp [hy], by simp [hz], l.findEdge?_eq_none hx,
        by rwa [l.remaining, l.remaining]⟩
  · apply l.skip
    refine Option.eq_none_iff_forall_ne_some.2 fun e he => hagree ?_
    exact (agree_congr l.frame).2 (newEdge?_eq_some.1 he).1

theorem linked_foldlM {chain : PolicyChain} {g h : OrderGraph} {done : List (Nat × Nat)}
    (hr : g.Reachable) (hg : g.edges = (FlowGraph.empty : OrderGraph).edges) (hnodup : done.Nodup)
    (hne : ∀ x ∈ done, x.1 ≠ x.2)
    (hok : done.foldlM (fun g x => linkPair chain g x.1 x.2) g = .ok h) : Linked chain g h done := by
  have start : Linked chain g g [] := by
    refine ⟨hr, FlowGraph.SameFrame.refl g, by rw [hg]; rfl, ?_⟩
    rw [hg]
    rfl
  have run := foldlM_invariant (P := fun done i => done.Nodup → (∀ x ∈ done, x.1 ≠ x.2) →
      Linked chain g i done) ?_ done [] (fun _ _ => start) hok
  · exact run hnodup hne
  · intro done x a b ih hstep hnodup hne
    obtain ⟨hdone, -, hdisjoint⟩ := List.nodup_append.1 hnodup
    refine linked_linkPair (ih hdone fun y hy => hne y (List.mem_append_left _ hy))
      (hne x (by simp)) ?_ hstep
    exact fun hx => hdisjoint x hx x (by simp) rfl

theorem ne_of_mem_pairs {sources targets : List Nat} (hapart : ∀ n ∈ sources, n ∉ targets) :
    ∀ x ∈ pairs sources targets, x.1 ≠ x.2 := by
  intro x hx e
  obtain ⟨hs, ht⟩ := mem_pairs.1 hx
  exact hapart x.1 hs (e ▸ ht)

theorem linked_linkAll {chain : PolicyChain} {g h : OrderGraph} {sources targets : List Nat}
    (hr : g.Reachable) (hg : g.edges = (FlowGraph.empty : OrderGraph).edges)
    (hs : sources.Nodup) (ht : targets.Nodup)
    (hapart : ∀ n ∈ sources, n ∉ targets) (hok : linkAll chain g sources targets = .ok h) :
    Linked chain g h (pairs sources targets) := by
  rw [linkAll_eq] at hok
  exact linked_foldlM hr hg (nodup_pairs hs ht) (ne_of_mem_pairs hapart) hok

end FlowPass

end OrderBook

import OrderBook.Proofs.Flow.Bounds

/-!
The graphs that operations lead to. Every graph made from the empty one by adding groups and nodes,
linking, unlinking and pushing flow is well formed and within its bounds.
-/

namespace OrderBook.FlowGraph

-- The zero of sums is the literal.
attribute [local instance (high)] Zero.ofOfNat0

variable {α : Type}

theorem inflow_eq_zero {g : FlowGraph α} {n : Nat} (h : g.node? n = none) : g.inflow n = 0 := by
  simp [inflow, incoming, sumFlow, h]

theorem outflow_eq_zero {g : FlowGraph α} {n : Nat} (h : g.node? n = none) : g.outflow n = 0 := by
  simp [outflow, outgoing, sumFlow, h]

theorem inflow_addNode (g : FlowGraph α) (data : α) (group : Option Nat) (n : Nat) :
    (g.addNode data group).1.inflow n = g.inflow n := by
  rw [inflow]
  rw [incoming_addNode]
  rfl

theorem outflow_addNode (g : FlowGraph α) (data : α) (group : Option Nat) (n : Nat) :
    (g.addNode data group).1.outflow n = g.outflow n := by
  rw [outflow]
  rw [outgoing_addNode]
  rfl

theorem groupInflow_addNode (g : FlowGraph α) (data : α) (group : Option Nat) (c : Nat) :
    (g.addNode data group).1.groupInflow c = g.groupInflow c := by
  simp only [groupInflow]
  rw [List.map_congr_left fun n _ => inflow_addNode g data group n, members_addNode]
  split
  · simp [inflow_eq_zero (node?_size g)]
  · rfl

theorem groupOutflow_addNode (g : FlowGraph α) (data : α) (group : Option Nat) (c : Nat) :
    (g.addNode data group).1.groupOutflow c = g.groupOutflow c := by
  simp only [groupOutflow]
  rw [List.map_congr_left fun n _ => outflow_addNode g data group n, members_addNode]
  split
  · simp [outflow_eq_zero (node?_size g)]
  · rfl

theorem sumFlow_connect {g : FlowGraph α} {s t c : Nat} {keys : List Nat}
    (h : g.edges.nextKey ∉ keys) :
    (g.connect s t c).sumFlow keys = g.sumFlow keys ∧
      (g.connect s t c).sumFlow (keys ++ [g.edges.nextKey]) = g.sumFlow keys := by
  have hf : ∀ k ∈ keys, (g.connect s t c).flowOf k = g.flowOf k := by
    intro k hk
    have hne : k ≠ g.edges.nextKey := fun e => h (e ▸ hk)
    simp [flowOf, edge?_connect, hne]
  have hnew : (g.connect s t c).flowOf g.edges.nextKey = 0 := by
    simp [flowOf, edge?_connect]
  have hkeys : (g.connect s t c).sumFlow keys = g.sumFlow keys := by
    simp only [sumFlow]
    rw [List.map_congr_left hf]
  refine ⟨hkeys, ?_⟩
  rw [sumFlow] at hkeys ⊢
  simp [hkeys, hnew]

theorem WellFormed.inflow_connect {g : FlowGraph α} (w : g.WellFormed) {t : Nat}
    (ht : (g.node? t).isSome = true) (s c n : Nat) : (g.connect s t c).inflow n = g.inflow n := by
  have h := sumFlow_connect (s := s) (t := t) (c := c) (w.nextKey_notMem n).2
  rw [inflow]
  rw [incoming_connect ht]
  split
  · exact h.2
  · exact h.1

theorem WellFormed.outflow_connect {g : FlowGraph α} (w : g.WellFormed) {s : Nat}
    (hs : (g.node? s).isSome = true) (t c n : Nat) : (g.connect s t c).outflow n = g.outflow n := by
  have h := sumFlow_connect (s := s) (t := t) (c := c) (w.nextKey_notMem n).1
  rw [outflow]
  rw [outgoing_connect hs]
  split
  · exact h.2
  · exact h.1

variable [Bounded α]

theorem WithinBounds.empty : (empty : FlowGraph α).WithinBounds where
  edge h := by simp [edge?_empty] at h
  inflow h := by simp [node?, FlowGraph.empty] at h
  outflow h := by simp [node?, FlowGraph.empty] at h
  groupInflow h := by simp [group?, FlowGraph.empty] at h
  groupOutflow h := by simp [group?, FlowGraph.empty] at h

theorem WithinBounds.addGroup {g : FlowGraph α} (b : g.WithinBounds) (limit : Nat) :
    (g.addGroup limit).1.WithinBounds where
  edge := b.edge
  inflow := b.inflow
  outflow := b.outflow
  groupInflow {c x} h := by
    rw [group?_addGroup] at h
    rw [FlowGraph.groupInflow]
    rw [members_addGroup]
    split at h
    · rename_i hc
      simp [hc, members, group?]
    · exact b.groupInflow h
  groupOutflow {c x} h := by
    rw [group?_addGroup] at h
    rw [FlowGraph.groupOutflow]
    rw [members_addGroup]
    split at h
    · rename_i hc
      simp [hc, members, group?]
    · exact b.groupOutflow h

theorem WithinBounds.addNode {g : FlowGraph α} (b : g.WithinBounds) (data : α)
    (group : Option Nat) : (g.addNode data group).1.WithinBounds where
  edge := b.edge
  inflow {n x} h := by
    rw [inflow_addNode]
    rw [node?_addNode] at h
    split at h
    · rename_i hn
      rw [inflow_eq_zero (hn ▸ node?_size g)]
      exact Nat.zero_le _
    · exact b.inflow h
  outflow {n x} h := by
    rw [outflow_addNode]
    rw [node?_addNode] at h
    split at h
    · rename_i hn
      rw [outflow_eq_zero (hn ▸ node?_size g)]
      exact Nat.zero_le _
    · exact b.outflow h
  groupInflow {c x} h := by
    rw [groupInflow_addNode]
    rw [group?_addNode] at h
    split at h
    · obtain ⟨y, hy, rfl⟩ := Option.map_eq_some_iff.1 h
      show g.groupInflow c ≤ y.limit
      exact b.groupInflow hy
    · exact b.groupInflow h
  groupOutflow {c x} h := by
    rw [groupOutflow_addNode]
    rw [group?_addNode] at h
    split at h
    · obtain ⟨y, hy, rfl⟩ := Option.map_eq_some_iff.1 h
      show g.groupOutflow c ≤ y.limit
      exact b.groupOutflow hy
    · exact b.groupOutflow h

theorem WithinBounds.link {g : FlowGraph α} (b : g.WithinBounds) (w : g.WellFormed) (s t : Nat) :
    (g.link s t).1.WithinBounds := by
  by_cases h : g.Linkable s t
  · have hi := w.inflow_connect h.target_isSome s (min (g.remaining s) (g.remaining t))
    have ho := w.outflow_connect h.source_isSome t (min (g.remaining s) (g.remaining t))
    have hm := (sameFrame_connect g s t (min (g.remaining s) (g.remaining t))).members
    rw [link_eq_connect h]
    refine b.of_le (sameFrame_connect g s t _) ?_ (fun n => Nat.le_of_eq (hi n))
      (fun n => Nat.le_of_eq (ho n)) ?_ ?_
    · intro k e hk
      rw [edge?_connect] at hk
      split at hk
      · cases hk
        exact Nat.zero_le _
      · exact b.edge hk
    · intro c
      apply Nat.le_of_eq
      simp only [FlowGraph.groupInflow]
      rw [hm, List.map_congr_left fun n _ => hi n]
    · intro c
      apply Nat.le_of_eq
      simp only [FlowGraph.groupOutflow]
      rw [hm, List.map_congr_left fun n _ => ho n]
  · rw [link_eq_self h]
    exact b

/-- What any sequence of operations makes of the empty graph. -/
inductive Reachable : FlowGraph α → Prop
  | empty : Reachable FlowGraph.empty
  | addGroup {g : FlowGraph α} (limit : Nat) : Reachable g → Reachable (g.addGroup limit).1
  | addNode {g : FlowGraph α} (data : α) (group : Option Nat) :
    Reachable g → Reachable (g.addNode data group).1
  | link {g : FlowGraph α} (source target : Nat) : Reachable g → Reachable (g.link source target).1
  | unlink {g : FlowGraph α} (node : Nat) : Reachable g → Reachable (g.unlink node)
  | pushFlow {g : FlowGraph α} : Reachable g → Reachable g.pushFlow.1

theorem Reachable.wellFormed {g : FlowGraph α} (r : Reachable g) : g.WellFormed := by
  induction r with
  | empty => exact WellFormed.empty
  | addGroup limit _ ih => exact ih.addGroup limit
  | addNode data group _ ih => exact ih.addNode data group
  | link source target _ ih => exact ih.link source target
  | unlink node _ ih => exact ih.unlink node
  | pushFlow _ ih => exact ih.pushFlow

theorem Reachable.withinBounds {g : FlowGraph α} (r : Reachable g) : g.WithinBounds := by
  induction r with
  | empty => exact WithinBounds.empty
  | addGroup limit _ ih => exact ih.addGroup limit
  | addNode data group _ ih => exact ih.addNode data group
  | link source target r ih => exact ih.link r.wellFormed source target
  | unlink node r ih => exact ih.unlink r.wellFormed node
  | pushFlow r ih => exact ih.pushFlow r.wellFormed

/-- Whatever led to a graph, its edges carry no more than their capacity, its nodes send and receive
no more than their payload allows, and the members of a group stay within its limit together. -/
theorem Reachable.flow_le_bounds {g : FlowGraph α} (r : Reachable g) :
    (∀ k e, g.edge? k = some e → e.flow ≤ e.capacity) ∧
      (∀ n x, g.node? n = some x →
        g.inflow n ≤ Bounded.maxFlow x.data ∧ g.outflow n ≤ Bounded.maxFlow x.data) ∧
      (∀ c x, g.group? c = some x → g.groupInflow c ≤ x.limit ∧ g.groupOutflow c ≤ x.limit) := by
  have b := r.withinBounds
  refine ⟨?_, ?_, ?_⟩
  · intro k e he
    exact b.edge he
  · intro n x hx
    exact ⟨b.inflow hx, b.outflow hx⟩
  · intro c x hx
    exact ⟨b.groupInflow hx, b.groupOutflow hx⟩

structure Slot where
  bound : Nat

instance : Bounded Slot := ⟨Slot.bound⟩

/-- Two nodes share a limit of 2. The first sends to the second and to a node outside, which sends
back to the second. -/
def sharedLimit : FlowGraph Slot :=
  let nodes := (((empty.addGroup 2).1.addNode ⟨3⟩ (some 0)).1.addNode ⟨2⟩ (some 0)).1
  let links := (((nodes.addNode ⟨5⟩ none).1.link 0 1).1.link 0 2).1
  (links.link 2 1).1

def sharedLimitPushed : FlowGraph Slot := (sharedLimit.pushFlow.1.unlink 1).pushFlow.1

theorem reachable_sharedLimitPushed : Reachable sharedLimitPushed :=
  .pushFlow (.unlink _ (.pushFlow (.link _ _ (.link _ _ (.link _ _
    (.addNode _ _ (.addNode _ _ (.addNode _ _ (.addGroup _ .empty)))))))))

/-- The second round moves what the first one sent within the group to the node outside, up to the
limit. -/
theorem flow_le_bounds_sharedLimitPushed :
    Reachable sharedLimitPushed ∧ sharedLimit.pushFlow.1.groupInflow 0 = 2 ∧
      sharedLimitPushed.groupOutflow 0 = 2 ∧
      (∀ k e, sharedLimitPushed.edge? k = some e → e.flow ≤ e.capacity) ∧
      (∀ n x, sharedLimitPushed.node? n = some x →
        sharedLimitPushed.inflow n ≤ x.data.bound ∧ sharedLimitPushed.outflow n ≤ x.data.bound) ∧
      (∀ c x, sharedLimitPushed.group? c = some x →
        sharedLimitPushed.groupInflow c ≤ x.limit ∧ sharedLimitPushed.groupOutflow c ≤ x.limit) :=
  ⟨reachable_sharedLimitPushed, by decide, by decide,
    Reachable.flow_le_bounds reachable_sharedLimitPushed⟩

end OrderBook.FlowGraph

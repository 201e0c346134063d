import OrderBook.Proofs.Flow.Sums
import OrderBook.Proofs.Flow.Unlink

/-!
Bounds on flow. No edge carries more than its capacity, no node sends or receives more than its
payload allows, and the members of a group together stay within its limit. A push keeps this because
it takes no more than what is left of each bound, and everything else only takes flow away.
-/

namespace OrderBook.FlowGraph

-- The zero of sums is the literal.
attribute [local instance (high)] Zero.ofOfNat0

variable {α : Type} [Bounded α]

structure WithinBounds (g : FlowGraph α) : Prop where
  edge : ∀ {k : Nat} {e : Edge}, g.edge? k = some e → e.flow ≤ e.capacity
  inflow : ∀ {n : Nat} {x : Node α}, g.node? n = some x → g.inflow n ≤ Bounded.maxFlow x.data
  outflow : ∀ {n : Nat} {x : Node α}, g.node? n = some x → g.outflow n ≤ Bounded.maxFlow x.data
  groupInflow : ∀ {c : Nat} {x : Group}, g.group? c = some x → g.groupInflow c ≤ x.limit
  groupOutflow : ∀ {c : Nat} {x : Group}, g.group? c = some x → g.groupOutflow c ≤ x.limit

/-! What is left of a bound -/

theorem room_le_own {g : FlowGraph α} {n : Nat} {x : Node α} (hx : g.node? n = some x) (used : Nat)
    (groupUsed : Nat → Nat) : g.room n used groupUsed ≤ Bounded.maxFlow x.data - used := by
  simp only [room, hx]
  split
  · exact Nat.le_refl _
  · split
    · exact Nat.le_refl _
    · exact Nat.min_le_left _ _

theorem room_le_group {g : FlowGraph α} {n c : Nat} {y : Group}
    (hn : (g.node? n).bind (·.group) = some c) (hy : g.group? c = some y) (used : Nat)
    (groupUsed : Nat → Nat) : g.room n used groupUsed ≤ y.limit - groupUsed c := by
  obtain ⟨x, hx, hc⟩ := Option.bind_eq_some_iff.1 hn
  simp only [room, hx, hc, hy]
  exact Nat.min_le_right _ _

theorem pushable_le_residual (g : FlowGraph α) (e : Edge) : g.pushable e ≤ e.residual :=
  Nat.le_trans (Nat.min_le_left _ _) (Nat.min_le_left _ _)

theorem pushable_le_supply (g : FlowGraph α) (e : Edge) : g.pushable e ≤ g.supply e.source :=
  Nat.le_trans (Nat.min_le_left _ _) (Nat.min_le_right _ _)

theorem pushable_le_demand (g : FlowGraph α) (e : Edge) : g.pushable e ≤ g.demand e.target :=
  Nat.min_le_right _ _

/-! Pushing keeps the bounds -/

theorem add_ite_le {c : Prop} [Decidable c] {used amount bound : Nat} (h : used ≤ bound)
    (hroom : c → amount ≤ bound - used) : used + (if c then amount else 0) ≤ bound := by
  split
  · rename_i hc
    have := hroom hc
    omega
  · exact h

theorem WithinBounds.edge_pushEdge {s : FlowGraph α × Nat} (b : s.1.WithinBounds) {key k : Nat}
    {f : Edge} (hk : (FlowGraph.pushEdge s key).1.edge? k = some f) : f.flow ≤ f.capacity := by
  rw [edge?_pushEdge] at hk
  split at hk
  · obtain ⟨e, he, rfl⟩ := Option.map_eq_some_iff.1 hk
    have hroom := pushable_le_residual s.1 e
    have hflow := b.edge he
    simp only [Edge.residual, Edge.addFlow] at hroom ⊢
    omega
  · exact b.edge hk

theorem WithinBounds.pushEdge {s : FlowGraph α × Nat} (b : s.1.WithinBounds) (w : s.1.WellFormed)
    (key : Nat) : (pushEdge s key).1.WithinBounds := by
  cases h : s.1.edge? key with
  | none =>
    have hs : FlowGraph.pushEdge s key = s := by simp [FlowGraph.pushEdge, h]
    rw [hs]
    exact b
  | some e =>
    have hn : (FlowGraph.pushEdge s key).1.node? = s.1.node? := by
      funext n; simp [node?, (nodes_pushEdge s key).1]
    have hg : (FlowGraph.pushEdge s key).1.group? = s.1.group? := by
      funext c; simp [group?, (nodes_pushEdge s key).2]
    have hsupply := pushable_le_supply s.1 e
    have hdemand := pushable_le_demand s.1 e
    constructor
    · exact fun hk => b.edge_pushEdge hk
    · intro n x hx
      rw [hn] at hx
      rw [w.inflow_pushEdge h]
      apply add_ite_le (b.inflow hx)
      intro ht
      subst ht
      exact Nat.le_trans hdemand (room_le_own hx _ _)
    · intro n x hx
      rw [hn] at hx
      rw [w.outflow_pushEdge h]
      apply add_ite_le (b.outflow hx)
      intro hs
      subst hs
      exact Nat.le_trans hsupply (room_le_own hx _ _)
    · intro c y hy
      rw [hg] at hy
      rw [w.groupInflow_pushEdge h]
      apply add_ite_le (b.groupInflow hy)
      intro ht
      exact Nat.le_trans hdemand (room_le_group (w.mem_members.1 ht) hy _ _)
    · intro c y hy
      rw [hg] at hy
      rw [w.groupOutflow_pushEdge h]
      apply add_ite_le (b.groupOutflow hy)
      intro hs
      exact Nat.le_trans hsupply (room_le_group (w.mem_members.1 hs) hy _ _)

theorem WithinBounds.pushFlow {g : FlowGraph α} (b : g.WithinBounds) (w : g.WellFormed) :
    g.pushFlow.1.WithinBounds :=
  (pushFlow_induction (P := fun h => h.WellFormed ∧ h.WithinBounds) ⟨w, b⟩ fun _ key h =>
    ⟨h.1.pushEdge key, h.2.pushEdge h.1 key⟩).2

/-! Less flow keeps the bounds -/

/-- A graph on the same frame with no more flow anywhere keeps the bounds. -/
theorem WithinBounds.of_le {g h : FlowGraph α} (b : g.WithinBounds) (f : SameFrame g h)
    (he : ∀ {k e}, h.edge? k = some e → e.flow ≤ e.capacity)
    (hi : ∀ n, h.inflow n ≤ g.inflow n) (ho : ∀ n, h.outflow n ≤ g.outflow n)
    (hgi : ∀ c, h.groupInflow c ≤ g.groupInflow c)
    (hgo : ∀ c, h.groupOutflow c ≤ g.groupOutflow c) : h.WithinBounds := by
  have node : ∀ {n x}, h.node? n = some x → ∃ y, g.node? n = some y ∧ y.data = x.data := by
    intro n x hx
    have := f.payload n
    rw [hx] at this
    exact Option.map_eq_some_iff.1 this.symm
  have group : ∀ c, h.group? c = g.group? c := by
    intro c
    simp [group?, f.groups]
  constructor
  · exact he
  · intro n x hx
    obtain ⟨y, hy, hd⟩ := node hx
    exact Nat.le_trans (hi n) (hd ▸ b.inflow hy)
  · intro n x hx
    obtain ⟨y, hy, hd⟩ := node hx
    exact Nat.le_trans (ho n) (hd ▸ b.outflow hy)
  · intro c x hx
    exact Nat.le_trans (hgi c) (b.groupInflow (group c ▸ hx))
  · intro c x hx
    exact Nat.le_trans (hgo c) (b.groupOutflow (group c ▸ hx))

omit [Bounded α] in
theorem entries_of_dropped {g h : FlowGraph α} {keys : List Nat} (d : Dropped keys g h) :
    h.edges.entries = g.edges.entries.filter (·.1 ∉ keys) := by
  refine Arena.eq_of_ascending (Arena.entries_ascending _)
    ((Arena.entries_ascending _).filter _) ?_
  rintro ⟨k, e⟩
  rw [mem_entries, d.edge?, List.mem_filter, mem_entries]
  by_cases hk : k ∈ keys <;> simp [hk]

omit [Bounded α] in
theorem flowWhere_of_dropped_le {g h : FlowGraph α} {keys : List Nat} (d : Dropped keys g h)
    (p : Edge → Bool) : h.flowWhere p ≤ g.flowWhere p := by
  rw [flowWhere]
  rw [entries_of_dropped d]
  exact sumWhere_filter_le _ _ _ _

theorem WithinBounds.of_dropped {g h : FlowGraph α} {keys : List Nat} (b : g.WithinBounds)
    (w : g.WellFormed) (d : Dropped keys g h) : h.WithinBounds := by
  have w' := w.of_dropped d
  refine b.of_le d.frame ?_ ?_ ?_ ?_ ?_
  · intro k e hk
    rw [d.edge?] at hk
    split at hk
    · cases hk
    · exact b.edge hk
  · intro n
    rw [w.inflow_eq, w'.inflow_eq]
    exact flowWhere_of_dropped_le d _
  · intro n
    rw [w.outflow_eq, w'.outflow_eq]
    exact flowWhere_of_dropped_le d _
  · intro c
    rw [w.groupInflow_eq, w'.groupInflow_eq, d.frame.members]
    exact flowWhere_of_dropped_le d _
  · intro c
    rw [w.groupOutflow_eq, w'.groupOutflow_eq, d.frame.members]
    exact flowWhere_of_dropped_le d _

theorem WithinBounds.unlink {g : FlowGraph α} (b : g.WithinBounds) (w : g.WellFormed) (node : Nat) :
    (g.unlink node).WithinBounds :=
  b.of_dropped w (w.dropped_unlink node)

end OrderBook.FlowGraph

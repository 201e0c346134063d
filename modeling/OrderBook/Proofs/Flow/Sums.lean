import OrderBook.Proofs.Flow.WellFormed
import OrderBook.Proofs.Sums

/-!
Flow as sums over the table of edges. In a well-formed graph what arrives at a node, or at a group, is
the flow of the edges that end there, whatever the lists of the nodes look like.
-/

namespace OrderBook

-- The zero of sums is the literal.
attribute [local instance (high)] Zero.ofOfNat0

namespace Arena

variable {α : Type}

theorem entries_modify_of_split {a : Arena α} {k : Nat} {x : α} {before after : List (Nat × α)}
    (h : a.entries = before ++ (k, x) :: after) (f : α → α) :
    (a.modify k f).entries = before ++ (k, f x) :: after := by
  have hasc := h ▸ entries_ascending a
  obtain ⟨-, hafter, hbefore⟩ := List.pairwise_append.1 hasc
  have hb : ∀ y ∈ before, y.1 ≠ k := by
    intro y hy e
    have := hbefore y hy (k, x) List.mem_cons_self
    omega
  have ha : ∀ y ∈ after, y.1 ≠ k := by
    intro y hy e
    have := (List.pairwise_cons.1 hafter).1 y hy
    simp only at this
    omega
  rw [entries_modify, h, List.map_append, List.map_cons, if_pos rfl]
  have id : ∀ l : List (Nat × α), (∀ y ∈ l, y.1 ≠ k) →
      l.map (fun x => if x.1 = k then (x.1, f x.2) else x) = l := by
    intro l hl
    have hc : ∀ y ∈ l, (if y.1 = k then (y.1, f y.2) else y) = y := fun y hy => if_neg (hl y hy)
    rw [List.map_congr_left hc, List.map_id']
  rw [id before hb, id after ha]

end Arena

namespace FlowGraph

variable {α : Type}

/-- The flow of all edges that meet a condition. -/
def flowWhere (g : FlowGraph α) (p : Edge → Bool) : Nat :=
  sumWhere (fun x : Nat × Edge => p x.2) (fun x => x.2.flow) g.edges.entries

theorem mem_entries {g : FlowGraph α} {k : Nat} {e : Edge} :
    (k, e) ∈ g.edges.entries ↔ g.edge? k = some e := Arena.mem_entries

theorem flowOf_eq {g : FlowGraph α} {k : Nat} {e : Edge} (h : g.edge? k = some e) :
    g.flowOf k = e.flow := by
  simp [flowOf, h]

theorem perm_keysWhere {g : FlowGraph α} {keys : List Nat} {p : Edge → Bool}
    (hn : keys.Nodup) (hk : ∀ k, k ∈ keys ↔ ∃ e, g.edge? k = some e ∧ p e = true) :
    keys.Perm ((g.edges.entries.filter fun x => p x.2).map Prod.fst) := by
  refine (List.perm_ext_iff_of_nodup hn ?_).2 fun k => ?_
  · have := (Arena.map_fst_entries g.edges) ▸ Arena.nodup_keys g.edges
    exact this.sublist (List.filter_sublist.map _)
  · rw [hk, List.mem_map]
    constructor
    · rintro ⟨e, he, hp⟩
      exact ⟨(k, e), List.mem_filter.2 ⟨mem_entries.2 he, hp⟩, rfl⟩
    · rintro ⟨⟨j, e⟩, hm, rfl⟩
      obtain ⟨hm, hp⟩ := List.mem_filter.1 hm
      exact ⟨e, mem_entries.1 hm, hp⟩

theorem sumFlow_eq_flowWhere {g : FlowGraph α} {keys : List Nat} {p : Edge → Bool}
    (hn : keys.Nodup) (hk : ∀ k, k ∈ keys ↔ ∃ e, g.edge? k = some e ∧ p e = true) :
    g.sumFlow keys = g.flowWhere p := by
  rw [sumFlow, flowWhere]
  rw [((perm_keysWhere hn hk).map g.flowOf).sum_nat, sumWhere_eq_filter, List.map_map]
  refine congrArg List.sum (List.map_congr_left ?_)
  rintro ⟨k, e⟩ hm
  exact flowOf_eq (mem_entries.1 (List.mem_filter.1 hm).1)

theorem WellFormed.inflow_eq {g : FlowGraph α} (w : g.WellFormed) (n : Nat) :
    g.inflow n = g.flowWhere fun e => e.target = n :=
  sumFlow_eq_flowWhere (w.incoming_nodup n) fun k => by simp [w.mem_incoming]

theorem WellFormed.outflow_eq {g : FlowGraph α} (w : g.WellFormed) (n : Nat) :
    g.outflow n = g.flowWhere fun e => e.source = n :=
  sumFlow_eq_flowWhere (w.outgoing_nodup n) fun k => by simp [w.mem_outgoing]

theorem WellFormed.groupInflow_eq {g : FlowGraph α} (w : g.WellFormed) (c : Nat) :
    g.groupInflow c = g.flowWhere fun e => e.target ∈ g.members c := by
  rw [groupInflow]
  rw [List.map_congr_left fun n _ => w.inflow_eq n]
  exact sum_map_sumWhere (fun x : Nat × Edge => x.2.target) _ _ (w.members_nodup c)

theorem WellFormed.groupOutflow_eq {g : FlowGraph α} (w : g.WellFormed) (c : Nat) :
    g.groupOutflow c = g.flowWhere fun e => e.source ∈ g.members c := by
  rw [groupOutflow]
  rw [List.map_congr_left fun n _ => w.outflow_eq n]
  exact sum_map_sumWhere (fun x : Nat × Edge => x.2.source) _ _ (w.members_nodup c)

theorem flowWhere_pushEdge [Bounded α] {s : FlowGraph α × Nat} {k : Nat} {e : Edge}
    (h : s.1.edge? k = some e) {p : Edge → Bool} (hp : ∀ n, p (e.addFlow n) = p e) :
    (pushEdge s k).1.flowWhere p = s.1.flowWhere p + if p e then s.1.pushable e else 0 := by
  obtain ⟨before, after, he⟩ := List.append_of_mem (Arena.mem_entries.2 h)
  have hm := Arena.entries_modify_of_split he
  have hs : (pushEdge s k).1.edges = s.1.edges.modify k (·.addFlow (s.1.pushable e)) := by
    simp [pushEdge, h]
  simp only [flowWhere]
  rw [hs, hm, he]
  simp only [sumWhere_append, sumWhere_cons, hp]
  split
  · simp only [Edge.addFlow]
    omega
  · omega

section PushEdge

variable [Bounded α] {s : FlowGraph α × Nat} {k : Nat} {e : Edge}

theorem WellFormed.outflow_pushEdge (w : s.1.WellFormed) (h : s.1.edge? k = some e) (n : Nat) :
    (FlowGraph.pushEdge s k).1.outflow n =
      s.1.outflow n + if e.source = n then s.1.pushable e else 0 := by
  rw [(w.pushEdge k).outflow_eq, w.outflow_eq, flowWhere_pushEdge h fun _ => rfl]
  simp only [decide_eq_true_eq]

theorem WellFormed.inflow_pushEdge (w : s.1.WellFormed) (h : s.1.edge? k = some e) (n : Nat) :
    (FlowGraph.pushEdge s k).1.inflow n =
      s.1.inflow n + if e.target = n then s.1.pushable e else 0 := by
  rw [(w.pushEdge k).inflow_eq, w.inflow_eq, flowWhere_pushEdge h fun _ => rfl]
  simp only [decide_eq_true_eq]

theorem WellFormed.groupOutflow_pushEdge (w : s.1.WellFormed) (h : s.1.edge? k = some e) (c : Nat) :
    (FlowGraph.pushEdge s k).1.groupOutflow c =
      s.1.groupOutflow c + if e.source ∈ s.1.members c then s.1.pushable e else 0 := by
  rw [(w.pushEdge k).groupOutflow_eq, w.groupOutflow_eq, (sameFrame_pushEdge s k).members,
    flowWhere_pushEdge h fun _ => rfl]
  simp only [decide_eq_true_eq]

theorem WellFormed.groupInflow_pushEdge (w : s.1.WellFormed) (h : s.1.edge? k = some e) (c : Nat) :
    (FlowGraph.pushEdge s k).1.groupInflow c =
      s.1.groupInflow c + if e.target ∈ s.1.members c then s.1.pushable e else 0 := by
  rw [(w.pushEdge k).groupInflow_eq, w.groupInflow_eq, (sameFrame_pushEdge s k).members,
    flowWhere_pushEdge h fun _ => rfl]
  simp only [decide_eq_true_eq]

end PushEdge

end FlowGraph

end OrderBook

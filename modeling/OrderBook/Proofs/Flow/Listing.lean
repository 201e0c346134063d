import OrderBook.Proofs.Flow.Reachable

/-!
Numbers of edges in the lists of nodes. The number of an edge stands once in the list of the node that
the edge leaves, once in the list of the node that it reaches, and nowhere else, also when the number
belonged to another edge before. This does not depend on what the sums over flow come to.
-/

namespace OrderBook.FlowGraph

-- The zero of sums is the literal.
attribute [local instance (high)] Zero.ofOfNat0

variable {α : Type}

namespace WellFormed

variable {g : FlowGraph α}

theorem count_outgoing (w : g.WellFormed) {k : Nat} {e : Edge} (h : g.edge? k = some e) :
    (g.outgoing e.source).count k = 1 :=
  List.count_eq_one_of_mem (w.outgoing_nodup _) (w.mem_outgoing.2 ⟨e, h, rfl⟩)

theorem count_incoming (w : g.WellFormed) {k : Nat} {e : Edge} (h : g.edge? k = some e) :
    (g.incoming e.target).count k = 1 :=
  List.count_eq_one_of_mem (w.incoming_nodup _) (w.mem_incoming.2 ⟨e, h, rfl⟩)

theorem notMem_outgoing (w : g.WellFormed) {k n : Nat} {e : Edge} (h : g.edge? k = some e)
    (hn : n ≠ e.source) : k ∉ g.outgoing n := by
  intro hk
  obtain ⟨f, hf, hsource⟩ := w.mem_outgoing.1 hk
  cases h.symm.trans hf
  exact hn hsource.symm

theorem notMem_incoming (w : g.WellFormed) {k n : Nat} {e : Edge} (h : g.edge? k = some e)
    (hn : n ≠ e.target) : k ∉ g.incoming n := by
  intro hk
  obtain ⟨f, hf, htarget⟩ := w.mem_incoming.1 hk
  cases h.symm.trans hf
  exact hn htarget.symm

theorem isSome_of_listed (w : g.WellFormed) {k n : Nat}
    (h : k ∈ g.outgoing n ∨ k ∈ g.incoming n) : (g.edge? k).isSome = true := by
  cases h with
  | inl h =>
    obtain ⟨e, he, -⟩ := w.mem_outgoing.1 h
    exact Option.isSome_of_eq_some he
  | inr h =>
    obtain ⟨e, he, -⟩ := w.mem_incoming.1 h
    exact Option.isSome_of_eq_some he

theorem group_iff_count (w : g.WellFormed) (n c : Nat) :
    (g.node? n).bind (·.group) = some c ↔ (g.members c).count n = 1 := by
  rw [← w.mem_members]
  constructor
  · exact List.count_eq_one_of_mem (w.members_nodup c)
  · intro h
    exact List.count_pos_iff.1 (h ▸ Nat.one_pos)

end WellFormed

variable [Bounded α]

/-- What any sequence of operations makes of the empty graph, also with sums over flow that overflow:
these may give a new edge another capacity, which is not zero, and leave other flow on the edges. -/
inductive Arises : FlowGraph α → Prop
  | empty : Arises FlowGraph.empty
  | addGroup {g : FlowGraph α} (limit : Nat) : Arises g → Arises (g.addGroup limit).1
  | addNode {g : FlowGraph α} (data : α) (group : Option Nat) :
    Arises g → Arises (g.addNode data group).1
  | link {g : FlowGraph α} (source target : Nat) : Arises g → Arises (g.link source target).1
  | connect {g : FlowGraph α} {source target capacity : Nat} : source ≠ target →
    (g.node? source).isSome = true → (g.node? target).isSome = true →
    g.findEdge? source target = none → 0 < capacity →
    Arises g → Arises (g.connect source target capacity)
  | unlink {g : FlowGraph α} (node : Nat) : Arises g → Arises (g.unlink node)
  | pushFlow {g : FlowGraph α} : Arises g → Arises g.pushFlow.1
  | reflow {g h : FlowGraph α} : h.nodes = g.nodes → h.groups = g.groups →
    (∀ k, (h.edge? k).map Edge.ends = (g.edge? k).map Edge.ends) → Arises g → Arises h

theorem Arises.wellFormed {g : FlowGraph α} (a : Arises g) : g.WellFormed := by
  induction a with
  | empty => exact WellFormed.empty
  | addGroup limit _ ih => exact ih.addGroup limit
  | addNode data group _ ih => exact ih.addNode data group
  | link source target _ ih => exact ih.link source target
  | connect hne hsource htarget hunlinked hcapacity _ ih =>
    exact ih.connect hne hsource htarget hunlinked hcapacity
  | unlink node _ ih => exact ih.unlink node
  | pushFlow _ ih => exact ih.pushFlow
  | reflow hnodes hgroups hends _ ih => exact ih.of_ends hnodes hgroups hends

/-- Whatever led to a graph, its lists, its edges and its groups say the same. -/
theorem Arises.listed_once {g : FlowGraph α} (a : Arises g) :
    (∀ k e, g.edge? k = some e →
      (g.outgoing e.source).count k = 1 ∧ (g.incoming e.target).count k = 1 ∧
        (∀ n, n ≠ e.source → k ∉ g.outgoing n) ∧ (∀ n, n ≠ e.target → k ∉ g.incoming n)) ∧
    (∀ k n, k ∈ g.outgoing n ∨ k ∈ g.incoming n → (g.edge? k).isSome = true) ∧
    (∀ k e, g.edge? k = some e → e.source ≠ e.target ∧ 1 ≤ e.capacity) ∧
    (∀ j k e f, g.edge? j = some e → g.edge? k = some f → e.source = f.source →
      e.target = f.target → j = k) ∧
    (∀ n c, (g.node? n).bind (·.group) = some c ↔ (g.members c).count n = 1) := by
  have w := a.wellFormed
  refine ⟨?_, ?_, ?_, ?_, w.group_iff_count⟩
  · intro k e he
    exact ⟨w.count_outgoing he, w.count_incoming he, fun _ => w.notMem_outgoing he,
      fun _ => w.notMem_incoming he⟩
  · exact fun k n => w.isSome_of_listed
  · intro k e he
    exact ⟨w.no_loop he, w.capacity_pos he⟩
  · exact fun j k e f => w.one_edge

/-- After a round the second node is cut off, which sets the numbers 0 and 2 free. Two new edges take
them, the one set free last first. -/
def sharedLimitRelinked : FlowGraph Slot :=
  (((sharedLimit.pushFlow.1.unlink 1).link 1 0).1.link 1 2).1

theorem arises_sharedLimitRelinked : Arises sharedLimitRelinked :=
  .link _ _ (.link _ _ (.unlink _ (.pushFlow (.link _ _ (.link _ _ (.link _ _
    (.addNode _ _ (.addNode _ _ (.addNode _ _ (.addGroup _ .empty))))))))))

/-- The number 2 stands for an edge from the second node to the first, and no longer in a list of the
node outside. -/
theorem listed_once_sharedLimitRelinked :
    Arises sharedLimitRelinked ∧
      sharedLimit.edge? 2 = some ⟨2, 1, 2, 0⟩ ∧ sharedLimitRelinked.edge? 2 = some ⟨1, 0, 2, 0⟩ ∧
      sharedLimitRelinked.outgoing 1 = [2, 0] ∧ 2 ∉ sharedLimitRelinked.outgoing 2 ∧
      (∀ k n, k ∈ sharedLimitRelinked.outgoing n ∨ k ∈ sharedLimitRelinked.incoming n →
        (sharedLimitRelinked.edge? k).isSome = true) := by
  obtain ⟨honce, hlisted, -⟩ := Arises.listed_once arises_sharedLimitRelinked
  have hedge : sharedLimitRelinked.edge? 2 = some ⟨1, 0, 2, 0⟩ := by decide
  obtain ⟨-, -, hothers, -⟩ := honce 2 _ hedge
  exact ⟨arises_sharedLimitRelinked, by decide, hedge, by decide, hothers 2 (by decide), hlisted⟩

end OrderBook.FlowGraph

import OrderBook.Proofs.Flow.WellFormed

/-!
Taking edges away. `unlink` clears the lists of a node and then removes its edges one by one, each
time telling the node at the other end. All in all this removes the edges of one node from the table
and from all lists, and leaves everything else as it was.
-/

namespace OrderBook

def Edge.otherEnd (e : Edge) (node : Nat) : Nat := if e.source = node then e.target else e.source

namespace FlowGraph

variable {α : Type}

/-- Where the numbers in `keys` are known: only in lists of the nodes at the other ends of their
edges. -/
def KnownAtOtherEnd (node : Nat) (g : FlowGraph α) (keys : List Nat) : Prop :=
  ∀ k ∈ keys, ∀ m, k ∈ g.outgoing m ∨ k ∈ g.incoming m →
    ∃ e, g.edge? k = some e ∧ e.otherEnd node = m

theorem edge?_dropEdge (node : Nat) (g : FlowGraph α) (key k : Nat) :
    (g.dropEdge node key).edge? k = if key = k then none else g.edge? k := by
  rw [dropEdge]
  cases h : g.edge? key with
  | none =>
    by_cases hk : key = k
    · subst hk; simp [h]
    · simp [hk]
  | some e => simp only [edge?, Arena.get?_remove]

theorem sameFrame_dropEdge (node : Nat) (g : FlowGraph α) (key : Nat) :
    SameFrame g (g.dropEdge node key) := by
  rw [dropEdge]
  cases h : g.edge? key with
  | none => exact SameFrame.refl g
  | some e =>
    refine ⟨fun n => ?_, rfl⟩
    by_cases hn : (if e.source = node then e.target else e.source) = n
    · simp only [node?, Array.getElem?_modify, hn, if_true]
      cases g.nodes[n]? <;> rfl
    · simp only [node?, Array.getElem?_modify, hn, if_false]

theorem lists_dropEdge {list : Node α → List Nat}
    (hf : ∀ x k, list (x.forget k) = (list x).filter (· ≠ k)) {node : Nat} {g : FlowGraph α}
    {key m : Nat}
    (known : key ∈ ((g.node? m).map list).getD [] →
      ∃ e, g.edge? key = some e ∧ e.otherEnd node = m) :
    (((g.dropEdge node key).node? m).map list).getD [] =
      (((g.node? m).map list).getD []).filter (· ≠ key) := by
  have absent : key ∉ ((g.node? m).map list).getD [] →
      (((g.node? m).map list).getD []).filter (· ≠ key) = ((g.node? m).map list).getD [] := by
    intro h
    refine List.filter_eq_self.2 fun j hj => ?_
    simp only [ne_eq, decide_eq_true_eq]
    exact fun e => h (e ▸ hj)
  rw [dropEdge]
  cases h : g.edge? key with
  | none =>
    rw [absent]
    intro hm
    obtain ⟨e, he, -⟩ := known hm
    simp [h] at he
  | some e =>
    by_cases hm : e.otherEnd node = m
    · have hm : (if e.source = node then e.target else e.source) = m := hm
      simp only [node?, Array.getElem?_modify, hm, if_true]
      cases g.nodes[m]? with
      | none => rfl
      | some x => simpa using hf x key
    · rw [absent]
      · have hm : ¬ (if e.source = node then e.target else e.source) = m := hm
        simp only [node?, Array.getElem?_modify, hm, if_false]
      · intro hmem
        obtain ⟨f, hf, ho⟩ := known hmem
        rw [h] at hf
        cases hf
        exact hm ho

theorem outgoing_dropEdge {node : Nat} {g : FlowGraph α} {key : Nat}
    (hk : KnownAtOtherEnd node g [key]) (m : Nat) :
    (g.dropEdge node key).outgoing m = (g.outgoing m).filter (· ≠ key) :=
  lists_dropEdge (fun x k => List.filter_congr fun j _ => by by_cases h : j = k <;> simp [h])
    fun h => hk key (by simp) m (.inl h)

theorem incoming_dropEdge {node : Nat} {g : FlowGraph α} {key : Nat}
    (hk : KnownAtOtherEnd node g [key]) (m : Nat) :
    (g.dropEdge node key).incoming m = (g.incoming m).filter (· ≠ key) :=
  lists_dropEdge (fun x k => List.filter_congr fun j _ => by by_cases h : j = k <;> simp [h])
    fun h => hk key (by simp) m (.inr h)

/-- What removing several edges of a node leaves. -/
structure Dropped (keys : List Nat) (g h : FlowGraph α) : Prop where
  edge? : ∀ k, h.edge? k = if k ∈ keys then none else g.edge? k
  outgoing : ∀ m, h.outgoing m = (g.outgoing m).filter (· ∉ keys)
  incoming : ∀ m, h.incoming m = (g.incoming m).filter (· ∉ keys)
  frame : SameFrame g h

theorem Dropped.refl (g : FlowGraph α) : Dropped [] g g :=
  ⟨by simp, fun m => (List.filter_eq_self.2 (by simp)).symm,
    fun m => (List.filter_eq_self.2 (by simp)).symm, SameFrame.refl g⟩

theorem Dropped.trans {keys more : List Nat} {g h i : FlowGraph α} (d : Dropped keys g h)
    (e : Dropped more h i) : Dropped (keys ++ more) g i := by
  refine ⟨fun k => ?_, fun m => ?_, fun m => ?_, d.frame.trans e.frame⟩
  · rw [e.edge?, d.edge?]
    by_cases hk : k ∈ keys <;> by_cases hm : k ∈ more <;> simp [hk, hm]
  · rw [e.outgoing, d.outgoing, List.filter_filter]
    exact List.filter_congr fun k _ => by simp [Bool.and_comm]
  · rw [e.incoming, d.incoming, List.filter_filter]
    exact List.filter_congr fun k _ => by simp [Bool.and_comm]

theorem dropped_foldl {node : Nat} {keys : List Nat} {g : FlowGraph α}
    (hk : KnownAtOtherEnd node g keys) : Dropped keys g (keys.foldl (dropEdge node) g) := by
  induction keys generalizing g with
  | nil => exact Dropped.refl g
  | cons key keys ih =>
    have hone : KnownAtOtherEnd node g [key] := by
      intro k hk' m hm
      obtain rfl := List.mem_singleton.1 hk'
      exact hk k List.mem_cons_self m hm
    have ho := outgoing_dropEdge hone
    have hi := incoming_dropEdge hone
    have hrest : KnownAtOtherEnd node (g.dropEdge node key) keys := by
      intro k hk' m hm
      rw [ho, hi] at hm
      have hne : key ≠ k := by
        rintro rfl
        simp at hm
      obtain ⟨e, he, hm⟩ := hk k (List.mem_cons_of_mem _ hk') m
        (hm.imp (fun h => (List.mem_filter.1 h).1) fun h => (List.mem_filter.1 h).1)
      exact ⟨e, by rw [edge?_dropEdge, if_neg hne, he], hm⟩
    have hd := ih hrest
    refine ⟨?_, ?_, ?_, (sameFrame_dropEdge node g key).trans hd.frame⟩
    · intro k
      rw [List.foldl_cons, hd.edge?, edge?_dropEdge]
      by_cases h1 : k ∈ keys <;> by_cases h2 : key = k <;> simp [h1, h2, Ne.symm]
    · intro m
      rw [List.foldl_cons, hd.outgoing, ho, List.filter_filter]
      refine List.filter_congr fun k _ => ?_
      simp [Bool.and_comm]
    · intro m
      rw [List.foldl_cons, hd.incoming, hi, List.filter_filter]
      refine List.filter_congr fun k _ => ?_
      simp [Bool.and_comm]

theorem unlink_eq (g : FlowGraph α) (node : Nat) :
    g.unlink node = (g.touching node).foldl (dropEdge node) (g.clearNode node) := rfl

theorem outgoing_clearNode (g : FlowGraph α) (node m : Nat) :
    (g.clearNode node).outgoing m = if m = node then [] else g.outgoing m := by
  simp only [outgoing, clearNode, node?, Array.getElem?_modify]
  by_cases hm : m = node
  · cases g.nodes[m]? <;> simp [hm]
  · simp [hm, Ne.symm hm]

theorem incoming_clearNode (g : FlowGraph α) (node m : Nat) :
    (g.clearNode node).incoming m = if m = node then [] else g.incoming m := by
  simp only [incoming, clearNode, node?, Array.getElem?_modify]
  by_cases hm : m = node
  · cases g.nodes[m]? <;> simp [hm]
  · simp [hm, Ne.symm hm]

theorem sameFrame_clearNode (g : FlowGraph α) (node : Nat) : SameFrame g (g.clearNode node) := by
  refine ⟨fun n => ?_, rfl⟩
  simp only [clearNode, node?, Array.getElem?_modify]
  cases g.nodes[n]? <;> by_cases h : node = n <;> simp [h, Node.card]

theorem WellFormed.mem_touching {g : FlowGraph α} (w : g.WellFormed) {n k : Nat} :
    k ∈ g.touching n ↔ ∃ e, g.edge? k = some e ∧ (e.source = n ∨ e.target = n) := by
  rw [touching]
  rw [List.mem_append, w.mem_outgoing, w.mem_incoming]
  constructor
  · rintro (⟨e, he, h⟩ | ⟨e, he, h⟩)
    · exact ⟨e, he, .inl h⟩
    · exact ⟨e, he, .inr h⟩
  · rintro ⟨e, he, h | h⟩
    · exact .inl ⟨e, he, h⟩
    · exact .inr ⟨e, he, h⟩

theorem WellFormed.knownAtOtherEnd {g : FlowGraph α} (w : g.WellFormed) (node : Nat) :
    KnownAtOtherEnd node (g.clearNode node) (g.touching node) := by
  intro k hk m hm
  obtain ⟨e, he, hend⟩ := w.mem_touching.1 hk
  refine ⟨e, he, ?_⟩
  rw [outgoing_clearNode, incoming_clearNode] at hm
  by_cases hmn : m = node
  · simp [hmn] at hm
  · simp only [hmn, if_false] at hm
    rw [Edge.otherEnd]
    rcases hm with hm | hm
    · obtain ⟨f, hf, hs⟩ := w.mem_outgoing.1 hm
      cases he.symm.trans hf
      simp [hs, hmn]
    · obtain ⟨f, hf, ht⟩ := w.mem_incoming.1 hm
      cases he.symm.trans hf
      have hs : e.source = node := hend.resolve_right (ht ▸ hmn)
      simp [hs, ht]

/-- `unlink` removes the edges of one node from the table and from all lists, and nothing else. -/
theorem WellFormed.dropped_unlink {g : FlowGraph α} (w : g.WellFormed) (node : Nat) :
    Dropped (g.touching node) g (g.unlink node) := by
  have hd := dropped_foldl (w.knownAtOtherEnd node)
  refine ⟨fun k => ?_, fun m => ?_, fun m => ?_, (sameFrame_clearNode g node).trans hd.frame⟩
  · rw [unlink_eq, hd.edge?]
    rfl
  · rw [unlink_eq, hd.outgoing, outgoing_clearNode]
    split
    · rename_i hm
      subst hm
      symm
      simp only [List.filter_nil, List.filter_eq_nil_iff, decide_eq_true_eq, Classical.not_not]
      exact fun k hk => List.mem_append_left _ hk
    · rfl
  · rw [unlink_eq, hd.incoming, incoming_clearNode]
    split
    · rename_i hm
      subst hm
      symm
      simp only [List.filter_nil, List.filter_eq_nil_iff, decide_eq_true_eq, Classical.not_not]
      exact fun k hk => List.mem_append_right _ hk
    · rfl

theorem WellFormed.of_dropped {g h : FlowGraph α} {keys : List Nat} (w : g.WellFormed)
    (d : Dropped keys g h) : h.WellFormed := by
  have back : ∀ {k : Nat} {e : Edge}, h.edge? k = some e → k ∉ keys ∧ g.edge? k = some e := by
    intro k e hk
    rw [d.edge?] at hk
    split at hk
    · cases hk
    · rename_i hn; exact ⟨hn, hk⟩
  constructor
  · intro n k
    rw [d.outgoing, d.edge?, List.mem_filter, w.mem_outgoing]
    by_cases hk : k ∈ keys <;> simp [hk]
  · intro n k
    rw [d.incoming, d.edge?, List.mem_filter, w.mem_incoming]
    by_cases hk : k ∈ keys <;> simp [hk]
  · intro n
    rw [d.outgoing]
    exact (w.outgoing_nodup n).filter _
  · intro n
    rw [d.incoming]
    exact (w.incoming_nodup n).filter _
  · intro k e hk
    exact w.no_loop (back hk).2
  · intro j k e f hj hk
    exact w.one_edge (back hj).2 (back hk).2
  · intro k e hk
    exact w.capacity_pos (back hk).2
  · intro c n
    rw [d.frame.members, d.frame.group]
    exact w.mem_members
  · intro c
    rw [d.frame.members]
    exact w.members_nodup c

theorem WellFormed.unlink {g : FlowGraph α} (w : g.WellFormed) (node : Nat) :
    (g.unlink node).WellFormed :=
  w.of_dropped (w.dropped_unlink node)

theorem WellFormed.dropped_unlinkAll {g : FlowGraph α} (w : g.WellFormed) (nodes : List Nat) :
    ∃ keys, Dropped keys g (nodes.foldl FlowGraph.unlink g) ∧
      ∀ k e, g.edge? k = some e → (k ∈ keys ↔ e.source ∈ nodes ∨ e.target ∈ nodes) := by
  induction nodes generalizing g with
  | nil => exact ⟨[], Dropped.refl g, by simp⟩
  | cons n ns ih =>
    have first := w.dropped_unlink n
    obtain ⟨keys, rest, hkeys⟩ := ih (w.unlink n)
    refine ⟨g.touching n ++ keys, first.trans rest, fun k e he => ?_⟩
    have htouch : k ∈ g.touching n ↔ e.source = n ∨ e.target = n := by
      rw [w.mem_touching]
      simp [he]
    rw [List.mem_append]
    by_cases ht : k ∈ g.touching n
    · have hn := htouch.1 ht
      simp only [ht, true_or, List.mem_cons, true_iff]
      exact hn.imp .inl .inl
    · have hn := mt htouch.2 ht
      have hk := hkeys k e (by rw [first.edge?, if_neg ht, he])
      rw [hk]
      simp only [ht, false_or, List.mem_cons]
      constructor
      · exact Or.imp .inr .inr
      · exact Or.imp (fun h => h.resolve_left fun hs => hn (.inl hs))
          (fun h => h.resolve_left fun hs => hn (.inr hs))

end FlowGraph

end OrderBook

import OrderBook.Flow.OrderNodes
import OrderBook.Proofs.Flow.Listing

/-!
What is left when a node loses its edges. The edges that touch the node go, all others stay as they
are, and what the nodes at the other ends send or receive falls by what the edges carried. The number
of removed edges is counted while they go, so an edge counts once, also when both of its ends are among
the nodes that lose their edges.
-/

namespace OrderBook

-- The zero of sums is the literal.
attribute [local instance (high)] Zero.ofOfNat0

theorem countP_or_of_filter {β : Type} (p q : β → Bool) (l : List β) :
    l.countP p + (l.filter fun x => !p x).countP q = l.countP fun x => p x || q x := by
  induction l with
  | nil => rfl
  | cons x l ih =>
    cases hp : p x with
    | true =>
      simp [hp, ← ih]
      omega
    | false =>
      simp [hp, ← ih, List.countP_cons]
      omega

namespace FlowGraph

variable {α : Type} {g h : FlowGraph α} {n k : Nat} {e : Edge} {keys : List Nat}

theorem touches_iff : e.touches n = true ↔ e.source = n ∨ e.target = n := by
  simp [Edge.touches]

theorem WellFormed.mem_touching_iff (w : g.WellFormed) (he : g.edge? k = some e) :
    k ∈ g.touching n ↔ e.touches n = true := by
  rw [w.mem_touching, touches_iff]
  simp [he]

theorem WellFormed.nodup_touching (w : g.WellFormed) (n : Nat) : (g.touching n).Nodup := by
  refine List.nodup_append.2 ⟨w.outgoing_nodup n, w.incoming_nodup n, ?_⟩
  rintro k hk j hj rfl
  obtain ⟨e, he, hsource⟩ := w.mem_outgoing.1 hk
  obtain ⟨f, hf, htarget⟩ := w.mem_incoming.1 hj
  cases he.symm.trans hf
  exact w.no_loop he (hsource.trans htarget.symm)

/-! Counting while edges go -/

theorem dropCount_eq_length (hnodup : keys.Nodup) (hlive : ∀ k ∈ keys, (g.edge? k).isSome = true) :
    dropCount n g keys = keys.length := by
  induction keys generalizing g with
  | nil => rfl
  | cons key keys ih =>
    obtain ⟨hfresh, hnodup⟩ := List.nodup_cons.1 hnodup
    have hrest : ∀ k ∈ keys, ((g.dropEdge n key).edge? k).isSome = true := by
      intro k hk
      have hne : key ≠ k := fun e => hfresh (e ▸ hk)
      rw [edge?_dropEdge, if_neg hne]
      exact hlive k (List.mem_cons_of_mem _ hk)
    rw [dropCount, if_pos (hlive key List.mem_cons_self), ih hnodup hrest, List.length_cons]

theorem WellFormed.unlinkCount_eq_length (w : g.WellFormed) (n : Nat) :
    g.unlinkCount n = (g.touching n).length := by
  refine dropCount_eq_length (w.nodup_touching n) fun k hk => ?_
  obtain ⟨e, he, -⟩ := w.mem_touching.1 hk
  have hcleared : (g.clearNode n).edge? k = some e := he
  exact Option.isSome_of_eq_some hcleared

theorem length_eq_countP {p : Edge → Bool} (hnodup : keys.Nodup)
    (hkeys : ∀ k, k ∈ keys ↔ ∃ e, g.edge? k = some e ∧ p e = true) :
    keys.length = g.edges.entries.countP fun x => p x.2 := by
  rw [(perm_keysWhere hnodup hkeys).length_eq, List.length_map, List.countP_eq_length_filter]

theorem WellFormed.unlinkCount_eq (w : g.WellFormed) (n : Nat) :
    g.unlinkCount n = g.edges.entries.countP fun x => x.2.touches n := by
  rw [w.unlinkCount_eq_length]
  refine length_eq_countP (p := fun e => e.touches n) (w.nodup_touching n) fun k => ?_
  rw [w.mem_touching]
  simp only [touches_iff]

/-! What stays -/

theorem flowWhere_of_dropped (d : Dropped keys g h) {gone : Edge → Bool}
    (hgone : ∀ k e, g.edge? k = some e → (k ∈ keys ↔ gone e = true)) (p : Edge → Bool) :
    g.flowWhere p = h.flowWhere p + g.flowWhere fun e => gone e && p e := by
  have hgone : ∀ x ∈ g.edges.entries, decide (x.1 ∉ keys) = !gone x.2 := by
    intro x hx
    have hiff := hgone x.1 x.2 (mem_entries.1 hx)
    cases hx : gone x.2 <;> simp [hiff, hx]
  have hsplit : ∀ x ∈ g.edges.entries,
      (p x.2 && decide (x.1 ∉ keys) || (gone x.2 && p x.2)) = p x.2 := by
    intro x hx
    rw [hgone x hx]
    cases p x.2 <;> cases gone x.2 <;> rfl
  have hapart : ∀ x ∈ g.edges.entries, (p x.2 && decide (x.1 ∉ keys)) = true →
      (gone x.2 && p x.2) = false := by
    intro x hx
    rw [hgone x hx]
    cases p x.2 <;> cases gone x.2 <;> simp
  simp only [flowWhere]
  rw [entries_of_dropped d, sumWhere_filter, ← sumWhere_or _ hapart]
  exact (sumWhere_congr fun x hx => by rw [hsplit x hx]).symm

/-- What is left of a graph when a node has lost its edges. -/
structure CutOff (n : Nat) (g h : FlowGraph α) : Prop where
  /-- The edges that touch the node are gone, and all others are as before. -/
  edge? : ∀ k, h.edge? k = (g.edge? k).filter fun e => !e.touches n
  /-- The lists of all nodes have lost the numbers of these edges, and nothing else. -/
  outgoing : ∀ m, h.outgoing m = (g.outgoing m).filter fun k => (h.edge? k).isSome
  incoming : ∀ m, h.incoming m = (g.incoming m).filter fun k => (h.edge? k).isSome
  /-- What arrives at a node has fallen by the flow of the removed edges that arrived there. -/
  inflow : ∀ m, g.inflow m = h.inflow m + g.flowWhere fun e => e.touches n && decide (e.target = m)
  outflow : ∀ m, g.outflow m = h.outflow m + g.flowWhere fun e => e.touches n && decide (e.source = m)
  frame : SameFrame g h

theorem WellFormed.cutOff_unlink (w : g.WellFormed) (n : Nat) : CutOff n g (g.unlink n) := by
  have d := w.dropped_unlink n
  have hkeys : ∀ k e, g.edge? k = some e → (k ∈ g.touching n ↔ e.touches n = true) :=
    fun _ _ => w.mem_touching_iff
  have hlive : ∀ k, (g.edge? k).isSome = true →
      decide (k ∉ g.touching n) = ((g.unlink n).edge? k).isSome := by
    intro k hk
    rw [d.edge?]
    by_cases ht : k ∈ g.touching n
    · simp [ht]
    · simp [ht, hk]
  refine ⟨fun k => ?_, fun m => ?_, fun m => ?_, fun m => ?_, fun m => ?_, d.frame⟩
  · rw [d.edge?]
    cases he : g.edge? k with
    | none => rw [ite_self, Option.filter_none]
    | some e =>
      by_cases ht : e.touches n = true
      · rw [if_pos ((hkeys k e he).2 ht), Option.filter_some_neg (by simpa using ht)]
      · rw [if_neg (mt (hkeys k e he).1 ht), Option.filter_some_pos (by simpa using ht)]
  · rw [d.outgoing]
    exact List.filter_congr fun k hk => hlive k (w.isSome_of_listed (.inl hk))
  · rw [d.incoming]
    exact List.filter_congr fun k hk => hlive k (w.isSome_of_listed (.inr hk))
  · rw [w.inflow_eq, (w.unlink n).inflow_eq, flowWhere_of_dropped d hkeys]
  · rw [w.outflow_eq, (w.unlink n).outflow_eq, flowWhere_of_dropped d hkeys]

theorem WellFormed.unlinkCount_unlink (w : g.WellFormed) (n : Nat) :
    (g.unlink n).unlinkCount n = 0 := by
  rw [(w.unlink n).unlinkCount_eq, List.countP_eq_zero]
  intro x hx
  have he := mem_entries.1 hx
  rw [(w.cutOff_unlink n).edge?, Option.filter_eq_some_iff] at he
  simpa using he.2

/-- Edges that touch several of the nodes leave with the first of them. -/
theorem WellFormed.countUnlinked_eq {g : OrderGraph} (w : g.WellFormed) (nodes : List Nat) :
    OrderNodes.countUnlinked g nodes =
      g.edges.entries.countP fun x => x.2.source ∈ nodes ∨ x.2.target ∈ nodes := by
  induction nodes generalizing g with
  | nil => simp [OrderNodes.countUnlinked]
  | cons n ns ih =>
    have hleft : (g.unlink n).edges.entries = g.edges.entries.filter fun x => !x.2.touches n := by
      rw [entries_of_dropped (w.dropped_unlink n)]
      refine List.filter_congr fun x hx => ?_
      have hiff := w.mem_touching_iff (n := n) (mem_entries.1 hx)
      cases ht : x.2.touches n <;> simp [hiff, ht]
    rw [OrderNodes.countUnlinked, w.unlinkCount_eq, ih (w.unlink n), hleft, countP_or_of_filter]
    refine List.countP_congr fun x _ => ?_
    simp only [Bool.or_eq_true, touches_iff, decide_eq_true_eq, List.mem_cons]
    exact or_or_or_comm

/-- A node that is unlinked loses the edges that touch it and nothing else, and their number is
returned. An order returns how many edges touch any of its nodes. -/
theorem unlink_removes_touching :
    (∀ {α : Type} [Bounded α] {g : FlowGraph α}, Arises g → ∀ n,
      g.unlinkCount n = (g.edges.entries.countP fun x => x.2.touches n) ∧
        CutOff n g (g.unlink n) ∧ (g.unlink n).unlinkCount n = 0) ∧
    (∀ {g : OrderGraph}, Arises g → ∀ c : OrderNodes,
      c.unlinkCount g =
        g.edges.entries.countP fun x => x.2.source ∈ c.nodes ∨ x.2.target ∈ c.nodes) := by
  constructor
  · intro α _ g a n
    exact ⟨a.wellFormed.unlinkCount_eq n, a.wellFormed.cutOff_unlink n,
      a.wellFormed.unlinkCount_unlink n⟩
  · intro g a c
    exact a.wellFormed.countUnlinked_eq c.nodes

def linkedPair : OrderGraph :=
  let price : Decimal := .ofUInt32 4
  let o : Order := { id := "pair", side := .buy, numItems := 2, price := ⟨price, price, 0, 100⟩ }
  let item : OrderItem := o.item "item" "c"
  let pair := ((FlowGraph.empty.addGroup 2).1.addNode item (some 0)).1.addNode item (some 0)
  let three := pair.1.addNode item none
  (((three.1.link 2 1).1.link 0 1).1.link 0 2).1.pushFlow.1

def pairNodes : OrderNodes :=
  let price : Decimal := .ofUInt32 4
  { order := { id := "pair", side := .buy, numItems := 2, price := ⟨price, price, 0, 100⟩ }
    group := 0
    nodes := [0, 1] }

/-- The edge inside the order touches both of its items and counts once, so that the order has three
edges to lose and its items two each. -/
theorem unlink_linkedPair :
    Arises linkedPair ∧ linkedPair.unlinkCount 0 = 2 ∧ linkedPair.unlinkCount 1 = 2 ∧
      pairNodes.unlinkCount linkedPair = 3 ∧ CutOff 1 linkedPair (linkedPair.unlink 1) ∧
      linkedPair.inflow 2 = (linkedPair.unlink 1).inflow 2 ∧
      linkedPair.outflow 2 = (linkedPair.unlink 1).outflow 2 + 2 := by
  have harises : Arises linkedPair :=
    .pushFlow (.link _ _ (.link _ _ (.link _ _
      (.addNode _ _ (.addNode _ _ (.addNode _ _ (.addGroup _ .empty)))))))
  obtain ⟨hnode, horder⟩ := unlink_removes_touching
  obtain ⟨hzero, -, -⟩ := hnode harises 0
  obtain ⟨hone, hcut, -⟩ := hnode harises 1
  refine ⟨harises, hzero.trans ?_, hone.trans ?_, (horder harises pairNodes).trans ?_, hcut,
    (hcut.inflow 2).trans ?_, (hcut.outflow 2).trans ?_⟩
  all_goals decide

end FlowGraph

end OrderBook

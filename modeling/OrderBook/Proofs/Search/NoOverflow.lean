import OrderBook.Proofs.Flow.Overflow
import OrderBook.Proofs.Search.ExactFill
import OrderBook.Proofs.Search.SilentCandidates

/-!
No sum of a pass overflows. All flow leaves the nodes of the root, and their group is limited to what
the root asks for; and as no edge lies within a group, everything that a pass adds up is part of that
flow. This holds while the orders are being linked, in the middle of a round and after it.
-/

namespace OrderBook

-- The zero of sums is the literal.
attribute [local instance (high)] Zero.ofOfNat0

namespace FlowPass

variable {chain : PolicyChain} {root : ResolvedOrder} {pool : List ResolvedOrder} {p : FlowPass}
  {now : UInt64} {record : OneToManyMatch}

/-! All that flows -/

theorem Sound.totalFlow_eq (s : Sound chain root pool p) :
    p.graph.totalFlow = sumWhere (fun _ => true) (·.flow) p.lanes := by
  rw [FlowGraph.totalFlow_eq]
  exact s.flowWhere_eq fun _ => rfl

/-- All flow leaves the root, so it is at most what the root asks for. -/
theorem Sound.totalFlow_le (s : Sound chain root pool p) :
    p.graph.totalFlow ≤ root.order.numItems.toNat := by
  obtain ⟨x, hx, hlimit⟩ := Option.map_eq_some_iff.1 s.layout.root.limit
  rw [s.totalFlow_eq, ← s.groupOutflow_eq, ← hlimit]
  exact s.bounds.groupOutflow hx

theorem Sound.outward (s : Sound chain root pool p) (c : Nat) : p.graph.Outward c := by
  intro k e he htarget hsource
  have hroot := s.source he
  obtain ⟨d, hd, hcandidate⟩ := s.target he
  have hgroup := (s.layout.root.mem_nodes s.wellFormed).1 hroot
  rw [s.wellFormed.mem_members.1 hsource] at hgroup
  obtain rfl : c = p.rootNodes.group := Option.some.inj hgroup
  rw [s.layout.root.members] at htarget
  exact s.layout.root_apart s.wellFormed htarget hd hcandidate

theorem Sound.sumsWithin (s : Sound chain root pool p) :
    p.graph.SumsWithin root.order.numItems :=
  s.wellFormed.sumsWithin s.outward s.totalFlow_le

/-! While the orders are linked -/

def unlinked (root : ResolvedOrder) (pool : List ResolvedOrder) : FlowPass :=
  let (g, rootNodes) := OrderNodes.insert .empty root
  let (graph, candidates) := insertAll g pool
  { root, graph, rootNodes, candidates }

def allPairs (p : FlowPass) : List (Nat × Nat) :=
  pairs p.rootNodes.nodes (p.candidates.flatMap (·.nodes))

/-- A pass that is being built, after some of the pairs. -/
def Linking (chain : PolicyChain) (root : ResolvedOrder) (pool : List ResolvedOrder)
    (p : FlowPass) : Prop :=
  ∃ done g, done <+: (unlinked root pool).allPairs ∧
    done.foldlM (fun g x => linkPair chain g x.1 x.2) (unlinked root pool).graph = .ok g ∧
    p = { unlinked root pool with graph := g }

theorem Linking.sound (l : Linking chain root pool p) : Sound chain root pool p := by
  obtain ⟨done, g, hfront, hlinked, rfl⟩ := l
  obtain ⟨hlayout, hreach, hedges⟩ := layout_insertAll root pool
  have w := hreach.wellFormed
  have hnodup := nodup_pairs (hlayout.root.nodes_nodup w) (hlayout.nodup_nodes w)
  have hne := ne_of_mem_pairs (hlayout.notMem_candidates w)
  exact sound_of_linked hlayout (linked_foldlM hreach hedges (hfront.sublist.nodup hnodup)
    (fun x hx => hne x (hfront.subset hx)) hlinked) hfront.subset

theorem linking_build (h : build chain root pool = .ok p) : Linking chain root pool p := by
  rw [build] at h
  obtain ⟨g, hg, h⟩ := bind_eq_ok.1 h
  obtain rfl := pure_eq_ok.1 h
  rw [linkAll_eq] at hg
  exact ⟨_, g, List.prefix_refl _, hg, rfl⟩

/-! In a round -/

def amid (p : FlowPass) (before : List Nat) : FlowPass :=
  { p with graph := (p.graph.pushThrough before).1 }

theorem Sound.amid (s : Sound chain root pool p) (before : List Nat) :
    Sound chain root pool (p.amid before) := by
  induction before using List.reverseRecOn with
  | nil => exact s
  | append_singleton before k ih =>
    rw [FlowPass.amid, FlowGraph.pushThrough_concat]
    exact ih.pushEdge (p.graph.pushThrough before).2 k

/-- That the sums of a round add up to at most `limit`: those over the graph after any part of the
round, the flow pushed so far and the flow on an edge as they grow, and what the candidates have
received when the round is judged. -/
structure RoundWithin (p : FlowPass) (limit : UInt32) : Prop where
  graph : ∀ before, before <+: p.graph.edges.keys → (p.graph.pushThrough before).1.SumsWithin limit
  pushed : ∀ before k, before ++ [k] <+: p.graph.edges.keys →
    AddsUp limit [(p.graph.pushThrough before).2, (p.graph.pushThrough before).1.pushableAt k]
      (p.graph.pushThrough (before ++ [k])).2
  flow : ∀ before k, before ++ [k] <+: p.graph.edges.keys →
    AddsUp limit [(p.graph.pushThrough before).1.flowOf k, (p.graph.pushThrough before).1.pushableAt k]
      ((p.graph.pushThrough (before ++ [k])).1.flowOf k)
  received : AddsUp limit (p.afterRound.engaged.map p.afterRound.received)
    (p.afterRound.engaged.map p.afterRound.received).sum

theorem Sound.roundWithin (s : Sound chain root pool p) : p.RoundWithin root.order.numItems := by
  constructor
  · exact fun before _ => (s.amid before).sumsWithin
  · intro before k _
    have htotal := p.graph.totalFlow_pushThrough (before ++ [k])
    have hle := (s.amid (before ++ [k])).totalFlow_le
    refine addsUp_of_le (by simp [FlowGraph.pushed_concat]) ?_
    exact Nat.le_trans (Nat.le_add_left _ _) (Nat.le_trans (Nat.le_of_eq htotal.symm) hle)
  · intro before k _
    refine addsUp_of_le (by simp [FlowGraph.flowOf_concat]) ?_
    exact Nat.le_trans (FlowGraph.flowOf_le _ k) (s.amid (before ++ [k])).totalFlow_le
  · refine addsUp_of_le rfl ?_
    rw [s.afterRound.sum_received, ← s.afterRound.totalFlow_eq]
    exact s.afterRound.totalFlow_le

/-! In a record -/

theorem sum_itemEdges_le (p : FlowPass) :
    (p.itemEdges.map fun e => e.numItems.toNat).sum ≤ p.graph.totalFlow := by
  refine Nat.le_trans (sum_map_filterMap_le (v := fun x => x.2.flow) _ ?_) ?_
  · rintro ⟨k, e⟩ edge hedge
    obtain ⟨a, -, hedge⟩ := Option.bind_eq_some_iff.1 hedge
    obtain ⟨b, -, hedge⟩ := Option.bind_eq_some_iff.1 hedge
    cases hedge
    exact Nat.mod_le _ _
  · rw [FlowGraph.carrying, ← sumWhere_eq_filter]
    exact p.graph.flowWhere_le Edge.hasFlow

theorem Sound.record_within (s : Sound chain root pool p) (g : p.Gives now record) :
    AddsUp root.order.numItems (record.edges.map fun e => e.numItems.toNat) record.numItems := by
  obtain ⟨clearing, -, rfl⟩ := g.made
  exact addsUp_of_le rfl (Nat.le_trans p.sum_itemEdges_le s.totalFlow_le)

end FlowPass

namespace OneToMany

/-- Whatever a search adds up, while it builds a pass, within the rounds of a pass and over the edges of
a record, comes to at most what the root asks for. -/
theorem sums_within_root (chain : PolicyChain) (root : ResolvedOrder)
    (candidates : List ResolvedOrder) (now : UInt64) :
    (∀ pool p, FlowPass.Linking chain root pool p → p.graph.SumsWithin root.order.numItems) ∧
    (∀ s p, Reaches (start chain root candidates now) s → s.pass = some p →
      p.RoundWithin root.order.numItems) ∧
    ∀ record waiting, (.ok record, waiting) ∈ (start chain root candidates now).drain.1 →
      AddsUp root.order.numItems (record.edges.map fun e => e.numItems.toNat) record.numItems := by
  have runs := runs_start chain root candidates now
  refine ⟨fun pool p hlinking => hlinking.sound.sumsWithin, ?_, ?_⟩
  · intro s p hreach hp
    obtain ⟨rest, -, hpass⟩ := (runs.reaches hreach).reachable hp
    exact hpass.sound.roundWithin
  · intro record waiting h
    obtain ⟨t, u, hreach, hgive, -⟩ := reaches_drain h
    obtain ⟨rest, p, -, hp, hgives⟩ := (runs.reaches hreach).give_ok hgive
    exact hp.sound.record_within hgives

theorem sums_within_bidForTwo :
    (∃ p, FlowPass.Linking .default bidForTwo asksForTwo p ∧ p.graph.SumsWithin 2) ∧
    (∃ s p, Reaches (start .default bidForTwo asksForTwo 7) s ∧ s.pass = some p ∧
      p.graph.pushFlow.2 = 2 ∧ p.RoundWithin 2) ∧
    ∃ record waiting, (.ok record, waiting) ∈ (start .default bidForTwo asksForTwo 7).drain.1 ∧
      AddsUp 2 (record.edges.map fun e => e.numItems.toNat) record.numItems := by
  obtain ⟨hlinking, hround, hrecord⟩ := sums_within_root .default bidForTwo asksForTwo 7
  have hpool : poolOf bidForTwo asksForTwo = asksForTwo :=
    poolOf_eq_self (by decide +kernel) (by decide +kernel)
  obtain ⟨p, hp, hpushed⟩ : ∃ p, FlowPass.build .default bidForTwo asksForTwo = .ok p ∧
      p.graph.pushFlow.2 = 2 := ⟨_, rfl, rfl⟩
  have hstart : start .default bidForTwo asksForTwo 7 = between .default bidForTwo 7 asksForTwo [] := by
    rw [start, hpool]
    rfl
  have hreach : Reaches (start .default bidForTwo asksForTwo 7)
      (inPass .default bidForTwo 7 p [askForOne "b" "2"] []) := by
    refine .move .start ?_
    rw [hstart, asksForTwo, move_built hp]
    rfl
  obtain ⟨record, waiting, h⟩ := drain_bidForTwo
  exact ⟨⟨p, FlowPass.linking_build hp, hlinking _ p (FlowPass.linking_build hp)⟩,
    ⟨_, p, hreach, rfl, hpushed, hround _ p hreach rfl⟩, record, waiting, h, hrecord record waiting h⟩

end OneToMany

end OrderBook

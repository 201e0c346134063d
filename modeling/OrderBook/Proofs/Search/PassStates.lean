import OrderBook.Proofs.Search.Linking

/-!
The states of a pass. Whatever rounds of flow and removals of candidates a pass goes through, its
graph stays within its bounds, the orders lie in it as they did at the start, and its edges lead from
items of the root to items of candidates that accept each other. So no candidate receives more than it
asks for.
-/

namespace OrderBook

-- The zero of sums is the literal.
attribute [local instance (high)] Zero.ofOfNat0

namespace FlowPass

def afterRound (p : FlowPass) : FlowPass := { p with graph := p.graph.pushFlow.1 }

/-- The states of the pass of a root over a pool. -/
inductive Reachable (chain : PolicyChain) (root : ResolvedOrder) (pool : List ResolvedOrder) :
    FlowPass → Prop
  | build {p : FlowPass} : build chain root pool = .ok p → Reachable chain root pool p
  | round {p : FlowPass} : Reachable chain root pool p → Reachable chain root pool p.afterRound
  | dropMain {p : FlowPass} : Reachable chain root pool p → Reachable chain root pool p.dropMain
  | dropCandidate {p : FlowPass} (index : Nat) :
    Reachable chain root pool p → Reachable chain root pool (p.dropCandidate index)

/-- What all states of a pass have in common. -/
structure Sound (chain : PolicyChain) (root : ResolvedOrder) (pool : List ResolvedOrder)
    (p : FlowPass) : Prop where
  sameRoot : p.root = root
  wellFormed : p.graph.WellFormed
  bounds : p.graph.WithinBounds
  layout : Layout root pool p.graph p.rootNodes p.candidates
  source : ∀ {k : Nat} {e : Edge}, p.graph.edge? k = some e → e.source ∈ p.rootNodes.nodes
  target : ∀ {k : Nat} {e : Edge}, p.graph.edge? k = some e →
    ∃ c ∈ p.candidates, e.target ∈ c.nodes
  agree : ∀ {k : Nat} {e : Edge} {a b : OrderItem}, p.graph.edge? k = some e →
    (p.graph.node? e.source).map (·.data) = some a →
    (p.graph.node? e.target).map (·.data) = some b → chain.mutualMatch a b = .ok true

variable {chain : PolicyChain} {root : ResolvedOrder} {pool : List ResolvedOrder} {p q : FlowPass}

theorem build_spec (h : build chain root pool = .ok p) :
    ∃ g : OrderGraph, p.root = root ∧ g.WellFormed ∧ Layout root pool g p.rootNodes p.candidates ∧
      Linked chain g p.graph (pairs p.rootNodes.nodes (p.candidates.flatMap (·.nodes))) := by
  obtain ⟨hlayout, hreach, hedges⟩ := layout_insertAll root pool
  have w := hreach.wellFormed
  rw [build] at h
  obtain ⟨graph, hgraph, h⟩ := bind_eq_ok.1 h
  obtain rfl := pure_eq_ok.1 h
  exact ⟨_, rfl, w, hlayout, linked_linkAll hreach hedges (hlayout.root.nodes_nodup w)
    (hlayout.nodup_nodes w) (hlayout.notMem_candidates w) hgraph⟩

theorem sound_of_linked {g graph : OrderGraph} {rootNodes : OrderNodes} {candidates : List OrderNodes}
    {done : List (Nat × Nat)} (hlayout : Layout root pool g rootNodes candidates)
    (hlinked : Linked chain g graph done)
    (hdone : ∀ x ∈ done, x ∈ pairs rootNodes.nodes (candidates.flatMap (·.nodes))) :
    Sound chain root pool { root, graph, rootNodes, candidates } := by
  refine ⟨rfl, hlinked.reachable.wellFormed, hlinked.reachable.withinBounds,
    hlayout.of_frame hlinked.frame, ?_, ?_, ?_⟩
  · intro k e he
    obtain ⟨x, hx, hnew⟩ := hlinked.edge he
    obtain ⟨-, -, rfl⟩ := newEdge?_eq_some.1 hnew
    exact (mem_pairs.1 (hdone x hx)).1
  · intro k e he
    obtain ⟨x, hx, hnew⟩ := hlinked.edge he
    obtain ⟨-, -, rfl⟩ := newEdge?_eq_some.1 hnew
    exact List.mem_flatMap.1 (mem_pairs.1 (hdone x hx)).2
  · intro k e a b he ha hb
    obtain ⟨x, -, hnew⟩ := hlinked.edge he
    obtain ⟨⟨a', b', hsource, htarget, hagree⟩, -, rfl⟩ := newEdge?_eq_some.1 hnew
    rw [hlinked.frame.payload, hsource] at ha
    rw [hlinked.frame.payload, htarget] at hb
    obtain ⟨rfl, rfl⟩ : a' = a ∧ b' = b := by simpa using And.intro ha hb
    exact PolicyChain.agrees_iff.1 hagree

theorem sound_build (h : build chain root pool = .ok p) : Sound chain root pool p := by
  obtain ⟨g, rfl, -, hlayout, hlinked⟩ := build_spec h
  exact sound_of_linked hlayout hlinked fun _ hx => hx

/-- A state on the same frame whose edges, flow apart, are among those of a sound one. -/
theorem Sound.of_frame (s : Sound chain root pool p) (hroot : q.root = p.root)
    (hnodes : q.rootNodes = p.rootNodes) (hcandidates : q.candidates = p.candidates)
    (w : q.graph.WellFormed) (b : q.graph.WithinBounds)
    (hframe : FlowGraph.SameFrame p.graph q.graph)
    (hedge : ∀ {k e}, q.graph.edge? k = some e →
      ∃ f, p.graph.edge? k = some f ∧ f.source = e.source ∧ f.target = e.target) :
    Sound chain root pool q := by
  refine ⟨hroot.trans s.sameRoot, w, b, ?_, ?_, ?_, ?_⟩
  · rw [hnodes, hcandidates]
    exact s.layout.of_frame hframe
  · intro k e he
    obtain ⟨f, hf, hs, -⟩ := hedge he
    rw [hnodes, ← hs]
    exact s.source hf
  · intro k e he
    obtain ⟨f, hf, -, ht⟩ := hedge he
    rw [hcandidates, ← ht]
    exact s.target hf
  · intro k e a b he ha hb
    obtain ⟨f, hf, hs, ht⟩ := hedge he
    rw [hframe.payload, ← hs] at ha
    rw [hframe.payload, ← ht] at hb
    exact s.agree hf ha hb

theorem Sound.of_ends (s : Sound chain root pool p) {g : OrderGraph} (w : g.WellFormed)
    (b : g.WithinBounds) (hframe : FlowGraph.SameFrame p.graph g)
    (hends : ∀ k, (g.edge? k).map Edge.ends = (p.graph.edge? k).map Edge.ends) :
    Sound chain root pool { p with graph := g } := by
  refine s.of_frame rfl rfl rfl w b hframe ?_
  intro k e he
  have := hends k
  rw [show g.edge? k = some e from he] at this
  obtain ⟨f, hf, hends⟩ := Option.map_eq_some_iff.1 this.symm
  obtain ⟨hs, ht, -⟩ : f.source = e.source ∧ f.target = e.target ∧ f.capacity = e.capacity := by
    simpa [Edge.ends] using hends
  exact ⟨f, hf, hs, ht⟩

theorem Sound.afterRound (s : Sound chain root pool p) : Sound chain root pool p.afterRound :=
  s.of_ends s.wellFormed.pushFlow (s.bounds.pushFlow s.wellFormed) (FlowGraph.sameFrame_pushFlow _)
    (FlowGraph.ends_pushFlow _)

theorem Sound.pushEdge (s : Sound chain root pool p) (pushed k : Nat) :
    Sound chain root pool { p with graph := (FlowGraph.pushEdge (p.graph, pushed) k).1 } :=
  s.of_ends (s.wellFormed.pushEdge (s := (p.graph, pushed)) k)
    (s.bounds.pushEdge (s := (p.graph, pushed)) s.wellFormed k)
    (FlowGraph.sameFrame_pushEdge (p.graph, pushed) k) (FlowGraph.ends_pushEdge (p.graph, pushed) k)

theorem Sound.unlink (s : Sound chain root pool p) (c : OrderNodes) :
    Sound chain root pool { p with graph := c.unlink p.graph } := by
  obtain ⟨keys, hdropped, -⟩ := s.wellFormed.dropped_unlinkAll c.nodes
  refine s.of_frame rfl rfl rfl (s.wellFormed.of_dropped hdropped)
    (s.bounds.of_dropped s.wellFormed hdropped) hdropped.frame ?_
  intro k e he
  have := hdropped.edge? k
  rw [show (c.nodes.foldl FlowGraph.unlink p.graph).edge? k = some e from he] at this
  split at this
  · cases this
  · exact ⟨e, this.symm, rfl, rfl⟩

theorem Sound.dropMain (s : Sound chain root pool p) : Sound chain root pool p.dropMain := by
  rw [FlowPass.dropMain]
  split
  · exact s
  · exact s.unlink _

theorem Sound.dropCandidate (s : Sound chain root pool p) (index : Nat) :
    Sound chain root pool (p.dropCandidate index) := by
  rw [FlowPass.dropCandidate]
  split
  · exact s
  · exact s.unlink _

theorem Reachable.sound (r : Reachable chain root pool p) : Sound chain root pool p := by
  induction r with
  | build h => exact sound_build h
  | round _ ih => exact ih.afterRound
  | dropMain _ ih => exact ih.dropMain
  | dropCandidate index _ ih => exact ih.dropCandidate index

theorem Sound.received_le (s : Sound chain root pool p) (i : Nat) : p.received i ≤ p.expected i := by
  rw [received, expected, candidate?]
  cases hc : p.candidates[i]? with
  | none => exact Nat.le_refl _
  | some c =>
    obtain ⟨r, -, hr⟩ := s.layout.candidate hc
    obtain ⟨x, hx, hlimit⟩ := Option.map_eq_some_iff.1 hr.limit
    have := s.bounds.groupInflow hx
    simp only [Option.map_some, Option.getD_some]
    rw [hr.numItems_eq, ← hlimit]
    exact this

end FlowPass

end OrderBook

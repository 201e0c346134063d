import OrderBook.Proofs.Search.PassStates

/-!
The edges of a pass by position. An edge leads from an item of the root to a part of a candidate, that
is to one of its items; as a lane it is named by these positions and no longer by numbers of nodes.
Every flow that a pass looks at is a sum over lanes.
-/

namespace OrderBook

-- The zero of sums is the literal.
attribute [local instance (high)] Zero.ofOfNat0

/-- An edge from an item of the root to a part of a candidate, by position. -/
@[ext]
structure Lane where
  item : Nat
  candidate : Nat
  part : Nat
  capacity : Nat
  flow : Nat
deriving DecidableEq

namespace FlowPass

def ownerOf (p : FlowPass) (node : Nat) : Nat := p.candidates.findIdx (·.contains node)

def laneOf (p : FlowPass) (e : Edge) : Lane where
  item := p.rootNodes.nodes.idxOf e.source
  candidate := p.ownerOf e.target
  part := ((p.candidate? (p.ownerOf e.target)).map (·.nodes.idxOf e.target)).getD 0
  capacity := e.capacity
  flow := e.flow

/-- The lanes of a pass in the order in which a round takes them. -/
def lanes (p : FlowPass) : List Lane := p.graph.edges.entries.map fun x => p.laneOf x.2

/-- That an edge lies at the positions of a lane. -/
structure Bears (p : FlowPass) (l : Lane) (e : Edge) : Prop where
  source : p.rootNodes.nodes[l.item]? = some e.source
  target : ∃ c, p.candidate? l.candidate = some c ∧ c.nodes[l.part]? = some e.target

variable {chain : PolicyChain} {root : ResolvedOrder} {pool : List ResolvedOrder} {p : FlowPass}
  {l : Lane} {e : Edge}

theorem bears_laneOf (hs : e.source ∈ p.rootNodes.nodes) (ht : ∃ c ∈ p.candidates, e.target ∈ c.nodes) :
    p.Bears (p.laneOf e) e := by
  have ht : ∃ c ∈ p.candidates, c.contains e.target = true := by
    obtain ⟨c, hc, hm⟩ := ht
    exact ⟨c, hc, by simpa [OrderNodes.contains] using hm⟩
  constructor
  · show p.rootNodes.nodes[p.rootNodes.nodes.idxOf e.source]? = some e.source
    rw [List.getElem?_eq_getElem (List.idxOf_lt_length_of_mem hs), List.getElem_idxOf]
  · have hlt : p.ownerOf e.target < p.candidates.length := List.findIdx_lt_length_of_exists ht
    have hc : p.candidate? (p.ownerOf e.target) = some p.candidates[p.ownerOf e.target] :=
      List.getElem?_eq_getElem hlt
    have hm : p.candidates[p.ownerOf e.target].contains e.target = true :=
      List.findIdx_getElem (w := hlt)
    have hm : e.target ∈ p.candidates[p.ownerOf e.target].nodes := by
      simpa only [OrderNodes.contains, List.contains_iff_mem] using hm
    refine ⟨_, hc, ?_⟩
    simp only [laneOf, hc, Option.map_some, Option.getD_some]
    rw [List.getElem?_eq_getElem (List.idxOf_lt_length_of_mem hm), List.getElem_idxOf]

theorem Sound.bears (s : Sound chain root pool p) {k : Nat} (he : p.graph.edge? k = some e) :
    p.Bears (p.laneOf e) e :=
  bears_laneOf (s.source he) (s.target he)

/-! Nodes and positions say the same -/

theorem Sound.source_iff (s : Sound chain root pool p) (b : p.Bears l e) {i n : Nat}
    (hn : p.rootNodes.nodes[i]? = some n) : e.source = n ↔ l.item = i := by
  have hnodup := s.layout.root.nodes_nodup s.wellFormed
  obtain ⟨hi, hn⟩ := List.getElem?_eq_some_iff.1 hn
  obtain ⟨hl, hs⟩ := List.getElem?_eq_some_iff.1 b.source
  rw [← hs, ← hn]
  exact List.getElem_inj hnodup

theorem Sound.target_iff (s : Sound chain root pool p) (b : p.Bears l e) {j : Nat} {c : OrderNodes}
    (hc : p.candidate? j = some c) : e.target ∈ c.nodes ↔ l.candidate = j := by
  obtain ⟨d, hd, ht⟩ := b.target
  have hm : e.target ∈ d.nodes := List.mem_of_getElem? ht
  constructor
  · intro hc'
    exact s.layout.candidate_unique s.wellFormed hd hc hm hc'
  · rintro rfl
    cases hc.symm.trans hd
    exact hm

theorem Sound.part_iff (s : Sound chain root pool p) (b : p.Bears l e) {j t n : Nat} {c : OrderNodes}
    (hc : p.candidate? j = some c) (hn : c.nodes[t]? = some n) :
    e.target = n ↔ l.candidate = j ∧ l.part = t := by
  obtain ⟨r, -, hr⟩ := s.layout.candidate hc
  have hnodup := hr.nodes_nodup s.wellFormed
  obtain ⟨d, hd, ht⟩ := b.target
  constructor
  · rintro rfl
    have hj := (s.target_iff b hc).1 (List.mem_of_getElem? hn)
    subst hj
    cases hc.symm.trans hd
    obtain ⟨hi, hn⟩ := List.getElem?_eq_some_iff.1 hn
    obtain ⟨hl, ht⟩ := List.getElem?_eq_some_iff.1 ht
    exact ⟨rfl, (List.getElem_inj hnodup).1 (ht.trans hn.symm)⟩
  · rintro ⟨rfl, rfl⟩
    cases hc.symm.trans hd
    simpa [ht] using hn

theorem Sound.laneOf_eq (s : Sound chain root pool p) (b : p.Bears l e)
    (hcapacity : l.capacity = e.capacity) (hflow : l.flow = e.flow) : p.laneOf e = l := by
  obtain ⟨c, hc, ht⟩ := b.target
  have b' : p.Bears (p.laneOf e) e :=
    bears_laneOf (List.mem_of_getElem? b.source) ⟨c, List.mem_of_getElem? hc, List.mem_of_getElem? ht⟩
  have hitem : (p.laneOf e).item = l.item := (s.source_iff b' b.source).1 rfl
  have hpart := (s.part_iff b' hc ht).1 rfl
  exact Lane.ext hitem hpart.1 hpart.2 hcapacity.symm hflow.symm

theorem Sound.item (s : Sound chain root pool p) (b : p.Bears l e) :
    ∃ a, root.items[l.item]? = some a ∧ (p.graph.node? e.source).map (·.data) = some a := by
  have hp := s.layout.root.payload b.source
  obtain ⟨hi, -⟩ := List.getElem?_eq_some_iff.1 b.source
  rw [s.layout.root.length_nodes] at hi
  have ha := List.getElem?_eq_getElem hi
  exact ⟨_, ha, hp.trans ha⟩

theorem Sound.part (s : Sound chain root pool p) (b : p.Bears l e) :
    ∃ r a, pool[l.candidate]? = some r ∧ r.items[l.part]? = some a ∧
      (p.graph.node? e.target).map (·.data) = some a := by
  obtain ⟨c, hc, ht⟩ := b.target
  obtain ⟨r, hr, hrep⟩ := s.layout.candidate hc
  have hp := hrep.payload ht
  obtain ⟨hi, -⟩ := List.getElem?_eq_some_iff.1 ht
  rw [hrep.length_nodes] at hi
  have ha := List.getElem?_eq_getElem hi
  exact ⟨r, _, hr, ha, hp.trans ha⟩

/-! Which candidates are linked -/

def links (p : FlowPass) (i j : Nat) : Bool :=
  p.graph.edges.entries.any fun x =>
    p.rootNodes.nodes[i]? == some x.2.source && (p.candidate? j).any (·.contains x.2.target)

/-- The candidates that are linked to an item of the root, in the order of the pool. -/
def linkedTo (p : FlowPass) (i : Nat) : List Nat :=
  (List.range p.candidates.length).filter (p.links i)

theorem Sound.links_iff (s : Sound chain root pool p) {i j : Nat} :
    p.links i j = true ↔ ∃ l ∈ p.lanes, l.item = i ∧ l.candidate = j := by
  rw [links]
  rw [List.any_eq_true]
  constructor
  · rintro ⟨⟨k, e⟩, hx, hends⟩
    obtain ⟨hsource, htarget⟩ := Bool.and_eq_true_iff.1 hends
    obtain ⟨c, hc, htarget⟩ := (Option.any_eq_true _ _).1 htarget
    have b := s.bears (FlowGraph.mem_entries.1 hx)
    refine ⟨p.laneOf e, List.mem_map_of_mem hx, ?_, ?_⟩
    · exact (s.source_iff b (beq_iff_eq.1 hsource)).1 rfl
    · exact (s.target_iff b hc).1 (by simpa [OrderNodes.contains] using htarget)
  · rintro ⟨l, hl, rfl, rfl⟩
    obtain ⟨⟨k, e⟩, hx, rfl⟩ := List.mem_map.1 hl
    have b := s.bears (FlowGraph.mem_entries.1 hx)
    obtain ⟨c, hc, ht⟩ := b.target
    refine ⟨(k, e), hx, Bool.and_eq_true_iff.2 ⟨beq_iff_eq.2 b.source, ?_⟩⟩
    refine (Option.any_eq_true _ _).2 ⟨c, hc, ?_⟩
    simpa [OrderNodes.contains] using List.mem_of_getElem? ht

/-! Flow as sums over lanes -/

theorem Sound.mem_lanes (s : Sound chain root pool p) (hl : l ∈ p.lanes) :
    ∃ k e, p.graph.edge? k = some e ∧ p.laneOf e = l ∧ p.Bears l e := by
  obtain ⟨⟨k, e⟩, hx, rfl⟩ := List.mem_map.1 hl
  have he := FlowGraph.mem_entries.1 hx
  exact ⟨k, e, he, rfl, s.bears he⟩

theorem Sound.flowWhere_eq (s : Sound chain root pool p) {f : Edge → Bool} {g : Lane → Bool}
    (h : ∀ {l e}, p.Bears l e → f e = g l) : p.graph.flowWhere f = sumWhere g (·.flow) p.lanes := by
  rw [lanes, FlowGraph.flowWhere]
  rw [sumWhere_map]
  refine sumWhere_congr fun x hx => ?_
  rw [h (s.bears (FlowGraph.mem_entries.1 hx))]
  rfl

theorem Sound.outflow_eq (s : Sound chain root pool p) {i n : Nat}
    (hn : p.rootNodes.nodes[i]? = some n) :
    p.graph.outflow n = sumWhere (·.item = i) (·.flow) p.lanes := by
  rw [s.wellFormed.outflow_eq]
  exact s.flowWhere_eq fun b => by simp [s.source_iff b hn]

theorem Sound.inflow_eq (s : Sound chain root pool p) {j t n : Nat} {c : OrderNodes}
    (hc : p.candidate? j = some c) (hn : c.nodes[t]? = some n) :
    p.graph.inflow n = sumWhere (fun l => l.candidate = j ∧ l.part = t) (·.flow) p.lanes := by
  rw [s.wellFormed.inflow_eq]
  exact s.flowWhere_eq fun b => by simp [s.part_iff b hc hn]

theorem Sound.groupOutflow_eq (s : Sound chain root pool p) :
    p.graph.groupOutflow p.rootNodes.group = sumWhere (fun _ => true) (·.flow) p.lanes := by
  rw [s.wellFormed.groupOutflow_eq, s.layout.root.members]
  exact s.flowWhere_eq fun b => by simp [List.mem_of_getElem? b.source]

theorem Sound.groupInflow_eq (s : Sound chain root pool p) {j : Nat} {c : OrderNodes}
    (hc : p.candidate? j = some c) :
    p.graph.groupInflow c.group = sumWhere (·.candidate = j) (·.flow) p.lanes := by
  obtain ⟨r, -, hr⟩ := s.layout.candidate hc
  rw [s.wellFormed.groupInflow_eq, hr.members]
  exact s.flowWhere_eq fun b => by simp [s.target_iff b hc]

theorem Sound.received_eq (s : Sound chain root pool p) (j : Nat) :
    p.received j = sumWhere (·.candidate = j) (·.flow) p.lanes := by
  rw [received]
  cases hc : p.candidate? j with
  | some c => exact s.groupInflow_eq hc
  | none =>
    have hz : ∀ l ∈ p.lanes, (if decide (l.candidate = j) then l.flow else 0) = 0 := by
      intro l hl
      obtain ⟨k, e, -, -, b⟩ := s.mem_lanes hl
      obtain ⟨c, hc', -⟩ := b.target
      have hne : l.candidate ≠ j := by
        rintro rfl
        simp [hc] at hc'
      simp [hne]
    rw [sumWhere]
    rw [List.map_congr_left hz]
    simp

theorem Sound.engaged_iff (s : Sound chain root pool p) {j : Nat} :
    j ∈ p.engaged ↔ ∃ l ∈ p.lanes, l.candidate = j ∧ 0 < l.flow := by
  rw [engaged]
  rw [List.mem_filter, List.mem_range, Option.any_eq_true]
  constructor
  · rintro ⟨-, c, hc, hany⟩
    obtain ⟨x, hx, ht⟩ := List.any_eq_true.1 hany
    obtain ⟨hx, hflow⟩ := List.mem_filter.1 hx
    have b := s.bears (FlowGraph.mem_entries.1 hx)
    have hflow : 0 < x.2.flow := by simpa [Edge.hasFlow] using hflow
    refine ⟨p.laneOf x.2, List.mem_map_of_mem hx, ?_, hflow⟩
    exact (s.target_iff b hc).1 (by simpa [OrderNodes.contains] using ht)
  · rintro ⟨l, hl, rfl, hflow⟩
    obtain ⟨⟨k, e⟩, hx, rfl⟩ := List.mem_map.1 hl
    have b := s.bears (FlowGraph.mem_entries.1 hx)
    obtain ⟨c, hc, ht⟩ := b.target
    refine ⟨(List.getElem?_eq_some_iff.1 hc).1, c, hc, List.any_eq_true.2 ⟨(k, e), ?_, ?_⟩⟩
    · have hflow : 0 < e.flow := hflow
      exact List.mem_filter.2 ⟨hx, by simpa [Edge.hasFlow] using hflow⟩
    · simpa [OrderNodes.contains] using List.mem_of_getElem? ht

theorem Sound.part_le (s : Sound chain root pool p) {j t : Nat} {r : ResolvedOrder} {a : OrderItem}
    (hr : pool[j]? = some r) (ha : r.items[t]? = some a) :
    sumWhere (fun l => l.candidate = j ∧ l.part = t) (·.flow) p.lanes ≤ a.maxContribution.toNat := by
  obtain ⟨hlen, hget⟩ := List.forall₂_iff_get.1 s.layout.candidates
  obtain ⟨hj, rfl⟩ := List.getElem?_eq_some_iff.1 hr
  have hj' : j < p.candidates.length := hlen ▸ hj
  have hrep : p.candidates[j].Represents p.graph pool[j] := hget j hj' hj
  obtain ⟨ht, -⟩ := List.getElem?_eq_some_iff.1 ha
  rw [← hrep.length_nodes] at ht
  have hn := List.getElem?_eq_getElem ht
  have hp := hrep.payload hn
  rw [ha] at hp
  obtain ⟨x, hx, hdata⟩ := Option.map_eq_some_iff.1 hp
  rw [← s.inflow_eq (List.getElem?_eq_getElem hj') hn]
  exact hdata ▸ s.bounds.inflow hx

theorem Sound.item_le (s : Sound chain root pool p) {i : Nat} {a : OrderItem}
    (ha : root.items[i]? = some a) :
    sumWhere (·.item = i) (·.flow) p.lanes ≤ a.maxContribution.toNat := by
  obtain ⟨hi, -⟩ := List.getElem?_eq_some_iff.1 ha
  rw [← s.layout.root.length_nodes] at hi
  have hn := List.getElem?_eq_getElem hi
  have hp := s.layout.root.payload hn
  rw [ha] at hp
  obtain ⟨x, hx, hdata⟩ := Option.map_eq_some_iff.1 hp
  rw [← s.outflow_eq hn]
  exact hdata ▸ s.bounds.outflow hx

/-! The engaged candidates -/

/-- The engaged candidates as orders of the pool. -/
def chosenFrom (p : FlowPass) (pool : List ResolvedOrder) : List ResolvedOrder :=
  p.engaged.filterMap (pool[·]?)

theorem Sound.expected_eq (s : Sound chain root pool p) {i : Nat} {r : ResolvedOrder}
    (hr : pool[i]? = some r) : p.expected i = r.order.numItems.toNat := by
  obtain ⟨hi, -⟩ := List.getElem?_eq_some_iff.1 hr
  rw [← s.layout.length_eq] at hi
  have hc := List.getElem?_eq_getElem hi
  obtain ⟨r', hr', hrep⟩ := s.layout.candidate hc
  cases hr.symm.trans hr'
  simp only [expected, candidate?, hc, Option.map_some, Option.getD_some, hrep.numItems_eq]

theorem Sound.opposingOrders_eq (s : Sound chain root pool p) :
    p.opposingOrders p.engaged = (p.chosenFrom pool).map (·.order) := by
  rw [opposingOrders, chosenFrom]
  rw [List.map_filterMap]
  refine List.filterMap_congr fun i _ => ?_
  cases hc : p.candidate? i with
  | some c =>
    obtain ⟨r, hr, hrep⟩ := s.layout.candidate hc
    simp [hr, hrep.order]
  | none =>
    have hi : pool[i]? = none := by
      rw [List.getElem?_eq_none_iff, ← s.layout.length_eq]
      exact List.getElem?_eq_none_iff.1 hc
    simp [hi]

theorem Sound.received_eq_expected (s : Sound chain root pool p)
    (hpool : ∀ r ∈ pool, r.order.numItems = 1) {i : Nat} (hi : i ∈ p.engaged) :
    p.received i = p.expected i := by
  obtain ⟨l, hl, hcandidate, hflow⟩ := s.engaged_iff.1 hi
  have hle : l.flow ≤ sumWhere (·.candidate = i) Lane.flow p.lanes :=
    le_sumWhere Lane.flow hl (decide_eq_true hcandidate)
  have hreceived : 1 ≤ p.received i := by
    rw [s.received_eq]
    exact Nat.le_trans hflow hle
  obtain ⟨k, e, -, -, b⟩ := s.mem_lanes hl
  obtain ⟨r, -, hr, -⟩ := s.part b
  have hexpected : p.expected i = 1 := by
    rw [s.expected_eq (hcandidate ▸ hr), hpool r (List.mem_of_getElem? hr)]
    rfl
  have := s.received_le i
  omega

theorem Sound.judge_eq (s : Sound chain root pool p) (hpool : ∀ r ∈ pool, r.order.numItems = 1) :
    p.judge p.engaged =
      if (p.engaged.map p.received).sum = p.rootNodes.numItems then .ok (.filled p.engaged)
      else .ok .part := by
  have hexceeded : p.engaged.find? (fun i => p.expected i < p.received i) = none := by
    rw [List.find?_eq_none]
    intro i hi
    simp [s.received_eq_expected hpool hi]
  have hunder : p.engaged.find? (fun i => p.received i < p.expected i) = none := by
    rw [List.find?_eq_none]
    intro i hi
    simp [s.received_eq_expected hpool hi]
  rw [judge, hexceeded, hunder]

end FlowPass

end OrderBook

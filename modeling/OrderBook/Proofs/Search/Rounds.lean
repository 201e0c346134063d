import OrderBook.Proofs.Flow.Maximal
import OrderBook.Proofs.Positions
import OrderBook.Proofs.Search.Lanes

/-!
Rounds of flow by lanes. What an edge can take is read off the lanes, the root and the pool, so a
round is a walk over the lanes, and a pass need not be looked at in terms of nodes and groups.
-/

namespace OrderBook

-- The zero of sums is the literal.
attribute [local instance (high)] Zero.ofOfNat0

namespace Lane

def addFlow (l : Lane) (n : Nat) : Lane := { l with flow := l.flow + n }

def supply (root : ResolvedOrder) (lanes : List Lane) (l : Lane) : Nat :=
  match root.items[l.item]? with
  | none => 0
  | some a =>
    min (a.maxContribution.toNat - sumWhere (·.item = l.item) (·.flow) lanes)
      (root.order.numItems.toNat - sumWhere (fun _ => true) (·.flow) lanes)

def demand (pool : List ResolvedOrder) (lanes : List Lane) (l : Lane) : Nat :=
  match pool[l.candidate]? with
  | none => 0
  | some r =>
    match r.items[l.part]? with
    | none => 0
    | some b =>
      min (b.maxContribution.toNat -
          sumWhere (fun m => m.candidate = l.candidate ∧ m.part = l.part) (·.flow) lanes)
        (r.order.numItems.toNat - sumWhere (·.candidate = l.candidate) (·.flow) lanes)

def fitting (root : ResolvedOrder) (pool : List ResolvedOrder) (lanes : List Lane) (l : Lane) : Nat :=
  min (min (l.capacity - l.flow) (l.supply root lanes)) (l.demand pool lanes)

end Lane

/-- A round over the lanes `rest` when those in `done` have had their turn, with the flow pushed. -/
def roundLanes (root : ResolvedOrder) (pool : List ResolvedOrder) (done : List Lane) :
    List Lane → List Lane × Nat
  | [] => (done, 0)
  | l :: rest =>
    let amount := l.fitting root pool (done ++ l :: rest)
    let (lanes, pushed) := roundLanes root pool (done ++ [l.addFlow amount]) rest
    (lanes, amount + pushed)

namespace FlowPass

variable {chain : PolicyChain} {root : ResolvedOrder} {pool : List ResolvedOrder} {p q : FlowPass}
  {l : Lane} {e : Edge}

theorem Sound.supply_eq (s : Sound chain root pool p) (b : p.Bears l e) :
    p.graph.supply e.source = l.supply root p.lanes := by
  obtain ⟨a, ha, -⟩ := s.item b
  rw [FlowGraph.supply, s.layout.root.room s.wellFormed b.source ha, s.outflow_eq b.source,
    s.groupOutflow_eq, Lane.supply, ha]

theorem Sound.demand_eq (s : Sound chain root pool p) (b : p.Bears l e) :
    p.graph.demand e.target = l.demand pool p.lanes := by
  obtain ⟨c, hc, ht⟩ := b.target
  obtain ⟨r, hr, hrep⟩ := s.layout.candidate hc
  obtain ⟨r', a, hr', ha, -⟩ := s.part b
  cases hr.symm.trans hr'
  rw [FlowGraph.demand, hrep.room s.wellFormed ht ha, s.inflow_eq hc ht, s.groupInflow_eq hc,
    Lane.demand, hr]
  simp only [ha]

theorem Sound.pushable_eq (s : Sound chain root pool p) {k : Nat} (he : p.graph.edge? k = some e) :
    p.graph.pushable e = (p.laneOf e).fitting root pool p.lanes := by
  have b := s.bears he
  rw [FlowGraph.pushable, s.supply_eq b, s.demand_eq b]
  rfl

/-- The rest of a round is the rest of the walk over the lanes. -/
theorem Sound.foldl_pushEdge (s : Sound chain root pool p) {done todo : List (Nat × Edge)}
    (h : p.graph.edges.entries = done ++ todo) (pushed : Nat) :
    let after := (todo.map (·.1)).foldl FlowGraph.pushEdge (p.graph, pushed)
    let walk := roundLanes root pool (done.map fun x => p.laneOf x.2) (todo.map fun x => p.laneOf x.2)
    after.1.edges.entries.map (fun x => p.laneOf x.2) = walk.1 ∧ after.2 = pushed + walk.2 := by
  induction todo generalizing p done pushed with
  | nil => simp [h, roundLanes]
  | cons x todo ih =>
    obtain ⟨k, e⟩ := x
    have he : p.graph.edge? k = some e := by
      apply FlowGraph.mem_entries.1
      rw [h]
      exact List.mem_append_right _ List.mem_cons_self
    have hlanes : p.lanes =
        done.map (fun x => p.laneOf x.2) ++ p.laneOf e :: todo.map fun x => p.laneOf x.2 := by
      rw [lanes, h, List.map_append, List.map_cons]
    have hamount := s.pushable_eq he
    rw [hlanes] at hamount
    have hentries : (FlowGraph.pushEdge (p.graph, pushed) k).1.edges.entries =
        (done ++ [(k, e.addFlow (p.graph.pushable e))]) ++ todo := by
      simp only [FlowGraph.pushEdge, he]
      rw [Arena.entries_modify_of_split h]
      simp
    have hpushed : (FlowGraph.pushEdge (p.graph, pushed) k).2 = pushed + p.graph.pushable e := by
      simp only [FlowGraph.pushEdge, he]
    obtain ⟨hafter, hsum⟩ := ih (s.pushEdge pushed k) hentries
      (FlowGraph.pushEdge (p.graph, pushed) k).2
    have hdone : (done ++ [(k, e.addFlow (p.graph.pushable e))]).map (fun x => p.laneOf x.2) =
        done.map (fun x => p.laneOf x.2) ++ [(p.laneOf e).addFlow (p.graph.pushable e)] := by
      rw [List.map_append]
      rfl
    simp only [List.map_cons, List.foldl_cons, roundLanes]
    rw [← hamount, ← hdone]
    refine ⟨hafter, ?_⟩
    rw [← Nat.add_assoc, ← hpushed]
    exact hsum

theorem Sound.lanes_afterRound (s : Sound chain root pool p) :
    p.afterRound.lanes = (roundLanes root pool [] p.lanes).1 ∧
      p.graph.pushFlow.2 = (roundLanes root pool [] p.lanes).2 := by
  have h := s.foldl_pushEdge (List.nil_append p.graph.edges.entries).symm 0
  simp only [Arena.map_fst_entries, List.map_nil, Nat.zero_add] at h
  exact h

theorem Sound.pushed_congr (s : Sound chain root pool p) (t : Sound chain root pool q)
    (h : p.lanes = q.lanes) : p.graph.pushFlow.2 = q.graph.pushFlow.2 := by
  rw [s.lanes_afterRound.2, t.lanes_afterRound.2, h]

theorem Sound.pushed_afterRound (s : Sound chain root pool p) :
    p.afterRound.graph.pushFlow.2 = 0 :=
  s.afterRound.wellFormed.pushed_eq_zero_iff.2 s.wellFormed.stable_pushFlow

theorem dropMain_of_nil (h : p.candidates = []) : p.dropMain = p := by
  rw [dropMain]
  split
  · rfl
  · rename_i hc
    cases h.symm.trans hc

theorem dropMain_of_cons {main : OrderNodes} {rest : List OrderNodes} (h : p.candidates = main :: rest) :
    p.dropMain = { p with graph := main.unlink p.graph } := by
  rw [dropMain]
  split
  · rename_i hc
    cases h.symm.trans hc
  · rename_i hc
    cases h.symm.trans hc
    rfl

theorem Sound.lanes_dropMain (s : Sound chain root pool p) :
    p.dropMain.lanes = p.lanes.filter fun l => l.candidate ≠ 0 := by
  cases hc : p.candidates with
  | nil =>
    rw [dropMain_of_nil hc]
    refine (List.filter_eq_self.2 fun l hl => ?_).symm
    obtain ⟨k, e, -, -, b⟩ := s.mem_lanes hl
    obtain ⟨c, hl, -⟩ := b.target
    simp [candidate?, hc] at hl
  | cons main rest =>
    have hmain : p.candidate? 0 = some main := by simp only [candidate?, hc, List.getElem?_cons_zero]
    obtain ⟨keys, hdropped, hkeys⟩ := s.wellFormed.dropped_unlinkAll main.nodes
    have hentries := FlowGraph.entries_of_dropped hdropped
    rw [dropMain_of_cons hc]
    have hlanes : ({ p with graph := main.unlink p.graph } : FlowPass).lanes =
        (p.graph.edges.entries.filter (·.1 ∉ keys)).map fun x => p.laneOf x.2 := by
      rw [← hentries]
      rfl
    rw [hlanes, lanes, List.filter_map]
    refine congrArg _ (List.filter_congr fun x hx => ?_)
    have he := FlowGraph.mem_entries.1 hx
    have hsource : x.2.source ∉ main.nodes :=
      s.layout.root_apart s.wellFormed (s.source he) (List.mem_of_getElem? hmain)
    have hkey : x.1 ∈ keys ↔ (p.laneOf x.2).candidate = 0 := by
      rw [hkeys x.1 x.2 he, or_iff_right hsource]
      exact s.target_iff (s.bears he) hmain
    simp only [Function.comp_apply, hkey, ne_eq]

/-! The lanes at the start -/

/-- The lane from an item of the root to an item of a candidate, if the two make one. -/
def newLane? (chain : PolicyChain) (root r : ResolvedOrder) (j : Nat) (b a : OrderItem × Nat) :
    Option Lane :=
  let capacity := min (min a.1.maxContribution.toNat root.order.numItems.toNat)
    (min b.1.maxContribution.toNat r.order.numItems.toNat)
  if chain.agrees a.1 b.1 && 0 < capacity then some ⟨a.2, j, b.2, capacity, 0⟩ else none

def orderLanes (chain : PolicyChain) (root : ResolvedOrder) (j : Nat) (r : ResolvedOrder) : List Lane :=
  r.items.zipIdx.flatMap fun b => root.items.zipIdx.filterMap (newLane? chain root r j b)

/-- The lanes to candidates that lie at the positions from `n` on. -/
def builtLanes (chain : PolicyChain) (root : ResolvedOrder) (n : Nat) (pool : List ResolvedOrder) :
    List Lane :=
  (pool.zipIdx n).flatMap fun x => orderLanes chain root x.2 x.1

theorem wholeRoom_eq {g : OrderGraph} {c : OrderNodes} {r : ResolvedOrder} (h : c.Represents g r)
    (w : g.WellFormed) {t n : Nat} {i : OrderItem} (hn : c.nodes[t]? = some n)
    (hi : r.items[t]? = some i) :
    wholeRoom g n = min i.maxContribution.toNat r.order.numItems.toNat := by
  rw [wholeRoom, h.room w hn hi, Nat.sub_zero, Nat.sub_zero]

theorem laneOf_newEdge? (s : Sound chain root pool p) {g : OrderGraph} (w : g.WellFormed)
    (hlayout : Layout root pool g p.rootNodes p.candidates) {i j t source target : Nat} {a b : OrderItem}
    {r : ResolvedOrder} {c : OrderNodes} (hsource : p.rootNodes.nodes[i]? = some source)
    (ha : root.items[i]? = some a) (hc : p.candidate? j = some c) (hr : pool[j]? = some r)
    (htarget : c.nodes[t]? = some target) (hb : r.items[t]? = some b) :
    (newEdge? chain g (source, target)).map p.laneOf = newLane? chain root r j (b, t) (a, i) := by
  obtain ⟨r', hr', hrep⟩ := hlayout.candidate hc
  cases hr.symm.trans hr'
  obtain ⟨x, hx, rfl⟩ := Option.map_eq_some_iff.1 ((hlayout.root.payload hsource).trans ha)
  obtain ⟨y, hy, rfl⟩ := Option.map_eq_some_iff.1 ((hrep.payload htarget).trans hb)
  have hsupply := wholeRoom_eq hlayout.root w hsource ha
  have hdemand := wholeRoom_eq hrep w htarget hb
  simp only [newEdge?, newLane?, hx, hy, hsupply, hdemand]
  split
  · rw [Option.map_some]
    exact congrArg some (s.laneOf_eq ⟨hsource, c, hc, htarget⟩ rfl rfl)
  · rfl

theorem lanes_build (h : build chain root pool = .ok p) : p.lanes = builtLanes chain root 0 pool := by
  obtain ⟨g, hroot, w, hlayout, hlinked⟩ := build_spec h
  have s := sound_build h
  have hedges : p.lanes = ((pairs p.rootNodes.nodes (p.candidates.flatMap (·.nodes))).filterMap
      (newEdge? chain g)).map p.laneOf := by
    rw [← hlinked.edges, List.map_map]
    rfl
  rw [hedges, pairs, builtLanes, List.flatMap_assoc, List.filterMap_flatMap, List.map_flatMap]
  refine congrArg List.flatten (map_eq_map_zipIdx hlayout.length_eq fun j c r hc hr => ?_)
  obtain ⟨r', hr', hrep⟩ := hlayout.candidate hc
  cases hr.symm.trans hr'
  rw [List.filterMap_flatMap, List.map_flatMap]
  refine congrArg List.flatten (map_eq_map_zipIdx hrep.length_nodes fun t target b htarget hb => ?_)
  rw [List.filterMap_map, List.map_filterMap]
  have hroot := map_eq_map_zipIdx hlayout.root.length_nodes fun i source a hsource ha =>
    laneOf_newEdge? s w hlayout hsource ha hc hr htarget hb
  have hsome := congrArg (List.filterMap id) hroot
  rwa [List.filterMap_map, List.filterMap_map] at hsome

end FlowPass

end OrderBook

import Mathlib.Data.List.Perm.Subperm
import OrderBook.Proofs.Order.Contribution
import OrderBook.Proofs.Positions
import OrderBook.Proofs.Search.Lanes
import OrderBook.Proofs.Search.Pool
import OrderBook.Proofs.Search.Runs

/-!
One-to-many records fill exactly. When a pass gives a record, each engaged candidate has received the
one token that it asks for, so an edge that carries anything carries one unit. The units add up to
what the root asks for, and so do the bounds of its items; hence every item of the root is used up.
-/

namespace OrderBook

-- The zero of sums is the literal.
attribute [local instance (high)] Zero.ofOfNat0

/-- A unit by position: from an item of the root to a part of a chosen order. -/
structure UnitLink where
  item : Nat
  chosen : Nat
  part : Nat

/-- A record that fills the root from the chosen orders, each edge of it being a unit. -/
structure OneToManyMatch.FillsExactly (m : OneToManyMatch) (chain : PolicyChain)
    (root : ResolvedOrder) (chosen : List ResolvedOrder) (links : List UnitLink) : Prop where
  order : m.order = root.order
  opposingOrders : m.opposingOrders = chosen.map (·.order)
  /-- Every edge is a unit between two items that accept each other. -/
  edges : List.Forall₂ (fun l e => root.items[l.item]? = some e.source ∧
    (∃ c, chosen[l.chosen]? = some c ∧ c.items[l.part]? = some e.target) ∧
    chain.mutualMatch e.source e.target = .ok true ∧ e.numItems = 1) links m.edges
  numItems : m.numItems = root.order.numItems.toNat
  /-- Every chosen order receives one unit. -/
  received : ∀ j < chosen.length, links.countP (·.chosen = j) = 1
  /-- Every item of the root is used up. -/
  used : ∀ {i : Nat} {a : OrderItem}, root.items[i]? = some a →
    links.countP (·.item = i) = a.maxContribution.toNat
  within : ∀ {j t : Nat} {c : ResolvedOrder} {b : OrderItem}, chosen[j]? = some c →
    c.items[t]? = some b →
    links.countP (fun l => l.chosen = j ∧ l.part = t) ≤ b.maxContribution.toNat

namespace FlowPass

variable {chain : PolicyChain} {root : ResolvedOrder} {pool : List ResolvedOrder} {p : FlowPass}
  {now : UInt64} {record : OneToManyMatch}

def linkOf (p : FlowPass) (l : Lane) : UnitLink where
  item := l.item
  chosen := p.engaged.idxOf l.candidate
  part := l.part

def unitLinks (p : FlowPass) : List UnitLink := (p.lanes.filter fun l => 0 < l.flow).map p.linkOf

theorem nodup_engaged (p : FlowPass) : p.engaged.Nodup := List.nodup_range.filter _

theorem Sound.isSome_engaged (s : Sound chain root pool p) :
    ∀ i ∈ p.engaged, (pool[i]?).isSome = true := by
  intro i hi
  have hi := List.mem_range.1 (List.mem_filter.1 hi).1
  rw [s.layout.length_eq] at hi
  simp [hi]

theorem Sound.chosen_sublist (s : Sound chain root pool p) : (p.chosenFrom pool).Sublist pool := by
  refine sublist_filterMap_getElem? ?_
  rw [← s.layout.length_eq]
  exact List.filter_sublist

theorem Sound.getElem?_chosen (s : Sound chain root pool p) (k : Nat) :
    (p.chosenFrom pool)[k]? = p.engaged[k]?.bind (pool[·]?) :=
  getElem?_filterMap_of_isSome s.isSome_engaged k

theorem Sound.length_chosen (s : Sound chain root pool p) :
    (p.chosenFrom pool).length = p.engaged.length :=
  length_filterMap_of_isSome s.isSome_engaged

theorem Sound.chosen_iff (s : Sound chain root pool p) {l : Lane} (hl : l ∈ p.lanes)
    (hflow : 0 < l.flow) {j i : Nat}
    (hi : p.engaged[j]? = some i) : l.candidate = i ↔ (p.linkOf l).chosen = j := by
  have hm : l.candidate ∈ p.engaged := s.engaged_iff.2 ⟨l, hl, rfl, hflow⟩
  have hlt := List.idxOf_lt_length_of_mem hm
  obtain ⟨hj, rfl⟩ := List.getElem?_eq_some_iff.1 hi
  constructor
  · intro he
    have hat : p.engaged[p.engaged.idxOf l.candidate] = p.engaged[j] := by
      rw [List.getElem_idxOf, he]
    exact (List.getElem_inj p.nodup_engaged).1 hat
  · rintro rfl
    exact (List.getElem_idxOf hlt).symm

theorem Sound.sum_received (s : Sound chain root pool p) :
    (p.engaged.map p.received).sum = sumWhere (fun _ => true) (·.flow) p.lanes := by
  rw [List.map_congr_left fun i _ => s.received_eq i,
    sum_map_sumWhere Lane.candidate _ _ p.nodup_engaged]
  refine sumWhere_congr fun l hl => ?_
  by_cases hflow : 0 < l.flow
  · simp [s.engaged_iff.2 ⟨l, hl, rfl, hflow⟩]
  · have hz : l.flow = 0 := by omega
    simp [hz]

theorem Sound.total_eq (s : Sound chain root pool p) (g : p.Gives now record) :
    sumWhere (fun _ => true) (·.flow) p.lanes = root.order.numItems.toNat := by
  rw [← s.sum_received, g.sum, s.layout.root.numItems_eq]

theorem Sound.item_eq (s : Sound chain root pool p) (g : p.Gives now record)
    (hroot : root.isEligibleRoot = true) {i : Nat} {a : OrderItem} (ha : root.items[i]? = some a) :
    sumWhere (·.item = i) (·.flow) p.lanes = a.maxContribution.toNat := by
  have hflows : ((List.range root.items.length).map fun i =>
      sumWhere (·.item = i) (·.flow) p.lanes).sum = root.order.numItems.toNat := by
    rw [sum_map_sumWhere Lane.item _ _ List.nodup_range, ← s.total_eq g]
    refine sumWhere_congr fun l hl => ?_
    obtain ⟨k, e, -, -, b⟩ := s.mem_lanes hl
    obtain ⟨c, hc, -⟩ := s.item b
    have hlt := (List.getElem?_eq_some_iff.1 hc).1
    simp [hlt]
  exact ResolvedOrder.bound_eq_of_sum hroot (fun i a ha => s.item_le ha) (Nat.le_of_eq hflows.symm) ha

/-! Counting units -/

section Units

variable (s : Sound chain root pool p) (hpool : ∀ r ∈ pool, r.order.numItems = 1)
  (g : p.Gives now record)

include s hpool g

theorem Sound.received_eq_one {i : Nat} (hi : i ∈ p.engaged) : p.received i = 1 := by
  obtain ⟨r, hr⟩ := Option.isSome_iff_exists.1 (s.isSome_engaged i hi)
  rw [g.received i hi, s.expected_eq hr, hpool r (List.mem_of_getElem? hr)]
  rfl

theorem Sound.flow_le_one {l : Lane} (hl : l ∈ p.lanes) : l.flow ≤ 1 := by
  by_cases hflow : 0 < l.flow
  · have hi := s.engaged_iff.2 ⟨l, hl, rfl, hflow⟩
    have hle : l.flow ≤ sumWhere (·.candidate = l.candidate) Lane.flow p.lanes :=
      le_sumWhere Lane.flow hl (decide_eq_true rfl)
    rw [← s.received_eq_one hpool g hi, s.received_eq]
    exact hle
  · omega

theorem Sound.sumWhere_eq (f : Lane → Bool) (h : UnitLink → Bool)
    (hf : ∀ l ∈ p.lanes, 0 < l.flow → f l = h (p.linkOf l)) :
    sumWhere f (·.flow) p.lanes = p.unitLinks.countP h := by
  rw [sumWhere_eq_countP f fun l hl => s.flow_le_one hpool g hl, unitLinks, List.countP_map]
  refine List.countP_congr fun l hl => ?_
  obtain ⟨hl, hflow⟩ := List.mem_filter.1 hl
  rw [hf l hl (of_decide_eq_true hflow)]
  rfl

theorem Sound.edges_fill : List.Forall₂ (fun (l : UnitLink) e =>
    root.items[l.item]? = some e.source ∧
    (∃ c, (p.chosenFrom pool)[l.chosen]? = some c ∧ c.items[l.part]? = some e.target) ∧
    chain.mutualMatch e.source e.target = .ok true ∧ e.numItems = 1) p.unitLinks p.itemEdges := by
  have hlinks : p.unitLinks = p.graph.carrying.map fun x => p.linkOf (p.laneOf x.2) := by
    rw [unitLinks, lanes, FlowGraph.carrying]
    rw [List.filter_map, List.map_map]
    rfl
  rw [hlinks]
  apply forall₂_map_filterMap
  rintro ⟨k, e⟩ hx
  obtain ⟨hx, hflow⟩ := List.mem_filter.1 hx
  have hflow : 0 < (p.laneOf e).flow := of_decide_eq_true hflow
  have hl : p.laneOf e ∈ p.lanes := List.mem_map_of_mem hx
  have he := FlowGraph.mem_entries.1 hx
  have b := s.bears he
  obtain ⟨a, ha, hsource⟩ := s.item b
  obtain ⟨r, c, hr, hc, htarget⟩ := s.part b
  have hagree := s.agree he hsource htarget
  obtain ⟨x, hx, rfl⟩ := Option.map_eq_some_iff.1 hsource
  obtain ⟨y, hy, rfl⟩ := Option.map_eq_some_iff.1 htarget
  refine ⟨⟨x.data, y.data, UInt32.ofNat e.flow⟩, ?_, ha, ⟨r, ?_, hc⟩, hagree, ?_⟩
  · simp [hx, hy]
  · have hm : (p.laneOf e).candidate ∈ p.engaged := s.engaged_iff.2 ⟨_, hl, rfl, hflow⟩
    have hlt := List.idxOf_lt_length_of_mem hm
    show (p.chosenFrom pool)[p.engaged.idxOf (p.laneOf e).candidate]? = some r
    rw [s.getElem?_chosen, List.getElem?_eq_getElem hlt, List.getElem_idxOf]
    exact hr
  · have hone : e.flow = 1 := Nat.le_antisymm (s.flow_le_one hpool g hl) hflow
    simp [hone]

theorem Sound.fillsExactly (hroot : root.isEligibleRoot = true) :
    record.FillsExactly chain root (p.chosenFrom pool) p.unitLinks := by
  obtain ⟨clearing, -, rfl⟩ := g.made
  have hedges := s.edges_fill hpool g
  refine ⟨?_, s.opposingOrders_eq, hedges, ?_, ?_, ?_, ?_⟩
  · show p.root.order = root.order
    rw [s.sameRoot]
  · have hcount : (p.itemEdges.map fun e => e.numItems.toNat).sum = p.unitLinks.length := by
      generalize p.unitLinks = links at hedges ⊢
      generalize p.itemEdges = edges at hedges ⊢
      induction hedges with
      | nil => rfl
      | cons h _ ih =>
        rw [List.map_cons, List.sum_cons, ih, h.2.2.2, List.length_cons, Nat.add_comm]
        rfl
    show (p.itemEdges.map fun e => e.numItems.toNat).sum = _
    rw [hcount, ← s.total_eq g, s.sumWhere_eq hpool g _ (fun _ => true) fun _ _ _ => rfl,
      List.countP_true]
  · intro j hj
    rw [s.length_chosen] at hj
    have hi := List.getElem?_eq_getElem hj
    rw [← s.received_eq_one hpool g (List.getElem_mem hj), s.received_eq]
    refine (s.sumWhere_eq hpool g _ _ fun l hl hflow => ?_).symm
    simp [s.chosen_iff hl hflow hi]
  · intro i a ha
    rw [← s.item_eq g hroot ha]
    exact (s.sumWhere_eq hpool g _ _ fun _ _ _ => rfl).symm
  · intro j t c b hc hb
    rw [s.getElem?_chosen] at hc
    obtain ⟨i, hi, hc⟩ := Option.bind_eq_some_iff.1 hc
    refine Nat.le_trans (Nat.le_of_eq ?_) (s.part_le hc hb)
    refine (s.sumWhere_eq hpool g _ _ fun l hl hflow => ?_).symm
    exact decide_eq_decide.2 (and_congr (s.chosen_iff hl hflow hi) Iff.rfl)

end Units

end FlowPass

namespace OneToMany

/-- Every record of a search fills the root exactly, each chosen order being an entry of its own among
the candidates. -/
theorem fillsExactly_of_mem_drain (chain : PolicyChain) (root : ResolvedOrder)
    (candidates : List ResolvedOrder) (now : UInt64) (hroot : root.isEligibleRoot = true)
    {record : OneToManyMatch} {waiting : Nat}
    (h : (.ok record, waiting) ∈ (start chain root candidates now).drain.1) :
    ∃ chosen links, chosen.Subperm candidates ∧
      (∀ c ∈ chosen, c.order.numItems = 1 ∧ c.order.side = root.order.side.opposite ∧
        c.id ≠ root.id) ∧
      record.FillsExactly chain root chosen links ∧
      record.opposingOrders.Pairwise fun a b =>
        ((compare a.startTime b.startTime).then (compare a.id b.id)).isLE = true := by
  obtain ⟨t, u, hreach, hgive, -⟩ := reaches_drain h
  obtain ⟨rest, p, hrest, hp, hgives⟩ :=
    ((runs_start chain root candidates now).reaches hreach).give_ok hgive
  have hpool : ∀ r ∈ rest, r.order.numItems = 1 ∧ r.order.side = root.order.side.opposite ∧
      r.id ≠ root.id :=
    fun r hr => isPoolCandidate_iff.1 (mem_poolOf.1 (hrest.subset hr)).2
  have hfill := hp.sound.fillsExactly (fun r hr => (hpool r hr).1) hgives hroot
  have hsublist := hp.sound.chosen_sublist
  have hpoolOf := hsublist.trans hrest.sublist
  refine ⟨_, _, ?_, fun c hc => hpool c (hsublist.subset hc), hfill, ?_⟩
  · apply hpoolOf.subperm.trans
    exact (perm_poolOf root candidates).subperm.trans List.filter_sublist.subperm
  · rw [hfill.opposingOrders, List.pairwise_map]
    exact (ascending_poolOf root candidates).sublist hpoolOf

def bidForTwo : ResolvedOrder :=
  let price : Decimal := .ofUInt32 10
  let o : Order := { id := "bid", side := .buy, numItems := 2, price := ⟨price, price, 0, 100⟩ }
  ⟨o, [(o.item "bid-1" "c").withToken "1", (o.item "bid-2" "c").withToken "2"]⟩

def askForOne (id token : String) : ResolvedOrder :=
  let price : Decimal := .ofUInt32 4
  let o : Order := { id := id, side := .sell, numItems := 1, price := ⟨price, price, 0, 100⟩ }
  ⟨o, [(o.item (id ++ "-" ++ token) "c").withToken token]⟩

def asksForTwo : List ResolvedOrder := [askForOne "a" "1", askForOne "b" "2"]

theorem foundOne_bidForTwo : ∃ record waiting,
    (start .default bidForTwo asksForTwo 7).drain.1 = [(.ok record, waiting)] := by
  have hpool : poolOf bidForTwo asksForTwo = asksForTwo :=
    poolOf_eq_self (by decide +kernel) (by decide +kernel)
  obtain ⟨record, waiting, hfound⟩ : ∃ record waiting, foundIn 12
      { chain := .default, root := bidForTwo, now := 7, pool := asksForTwo } =
        [(.ok record, waiting)] := ⟨_, _, rfl⟩
  exact ⟨record, waiting, (drain_start_eq hpool rfl).trans hfound⟩

theorem drain_bidForTwo :
    ∃ record waiting, (.ok record, waiting) ∈ (start .default bidForTwo asksForTwo 7).drain.1 := by
  obtain ⟨record, waiting, hfound⟩ := foundOne_bidForTwo
  refine ⟨record, waiting, ?_⟩
  rw [hfound]
  exact List.mem_cons_self

theorem fillsExactly_bidForTwo : bidForTwo.isEligibleRoot = true ∧
    ∃ record waiting, (.ok record, waiting) ∈ (start .default bidForTwo asksForTwo 7).drain.1 ∧
      ∃ chosen links, chosen.Subperm asksForTwo ∧
        record.FillsExactly .default bidForTwo chosen links := by
  have hroot : bidForTwo.isEligibleRoot = true := by decide +kernel
  obtain ⟨record, waiting, h⟩ := drain_bidForTwo
  obtain ⟨chosen, links, hchosen, -, hfill, -⟩ :=
    fillsExactly_of_mem_drain .default bidForTwo asksForTwo 7 hroot h
  exact ⟨hroot, record, waiting, h, chosen, links, hchosen, hfill⟩

end OneToMany

end OrderBook

import OrderBook.Proofs.Price.Clearing
import OrderBook.Proofs.Search.OneByOne
import OrderBook.Proofs.Search.Runs
import OrderBook.Search.Engine

/-!
The price and the instant of a record are those of the intersection that its orders have: the record
is made at the first instant from now on at which they meet, and it is priced by that instant.
-/

namespace OrderBook

/-- The intersection of the orders of a record, worked out again from the record. -/
def OrderMatch.intersection : OrderMatch → Result (Option PriceIntersection)
  | .oneToOne m => m.order.intersection m.opposingOrder
  | .oneToMany m => m.order.combinedIntersection m.opposingOrders

/-- A record that is priced by an intersection as of `now`. -/
structure OrderMatch.PricedBy (m : OrderMatch) (x : PriceIntersection) (now : UInt64) : Prop where
  intersection : m.intersection = .ok (some x)
  timestamp : m.timestamp = max now x.validFrom
  from_le : x.validFrom ≤ m.timestamp
  le_until : m.timestamp ≤ x.validUntil
  /-- The interval is still open. -/
  now_le_until : now ≤ x.validUntil
  price : x.priceAt m.timestamp = .ok (some m.price)
  contains : m.order.price.contains m.timestamp = true
  opposing_contains : ∀ o ∈ m.opposingOrders, o.price.contains m.timestamp = true
  /-- The buying side pays at most the price. -/
  bid_le : ∃ b, x.bid.valueAt m.timestamp = .ok b ∧ b ≤ m.price
  ask_le : ∃ a, x.ask.valueAt m.timestamp = .ok a ∧ a ≤ m.price
  buyer : m.order.side = .buy → x.bid = m.order.price
  seller : m.order.side = .sell → x.ask = m.order.price

namespace OrderMatch

variable {m : OrderMatch} {x : PriceIntersection} {now : UInt64} {c : ClearingPrice}

theorem pricedBy_of_resolve (hx : m.intersection = .ok (some x))
    (hclears : m.order.Clears m.opposingOrders x) (hc : x.resolve now = .ok (some c))
    (htimestamp : m.timestamp = c.timestamp) (hprice : m.price = c.price) : m.PricedBy x now := by
  obtain ⟨htime, hpriceAt⟩ := PriceIntersection.resolve_eq_some hclears.meets hc
  obtain ⟨hfrom, huntil, b, a, hb, ha, hmax⟩ := PriceIntersection.priceAt_eq_some hpriceAt
  rw [← htimestamp] at htime hpriceAt hfrom huntil hb ha
  rw [← hprice] at hpriceAt hmax
  have hcontains : ∀ o ∈ m.order :: m.opposingOrders, o.price.contains m.timestamp = true := by
    intro o ho
    obtain ⟨hstart, hend⟩ := hclears.within o ho
    exact PriceCurve.contains_iff.2 ⟨UInt64.le_trans hstart hfrom, UInt64.le_trans huntil hend⟩
  have hnow : now ≤ m.timestamp := htime ▸ le_max_left_time now x.validFrom
  exact {
    intersection := hx
    timestamp := htime
    from_le := hfrom
    le_until := huntil
    now_le_until := UInt64.le_trans hnow huntil
    price := hpriceAt
    contains := hcontains _ List.mem_cons_self
    opposing_contains := fun o ho => hcontains o (List.mem_cons_of_mem _ ho)
    bid_le := ⟨b, hb, hmax ▸ Decimal.le_max_left b a⟩
    ask_le := ⟨a, ha, hmax ▸ Decimal.le_max_right b a⟩
    buyer := hclears.buyer
    seller := hclears.seller }

end OrderMatch

namespace OneToOne

theorem pricedBy_matchCandidate {chain : PolicyChain} {root candidate : ResolvedOrder}
    {now : UInt64} {m : OneToOneMatch}
    (h : matchCandidate chain root candidate now = .ok (some m)) :
    m.order = root.order ∧ ∃ x, (OrderMatch.oneToOne m).PricedBy x now := by
  obtain ⟨-, x, p, clearing, hx, -, hclearing, rfl⟩ := matchCandidate_eq_some h
  exact ⟨rfl, x, OrderMatch.pricedBy_of_resolve hx (Order.clears_intersection hx) hclearing rfl rfl⟩

theorem pricedBy_search {chain : PolicyChain} {root : ResolvedOrder} {now : UInt64}
    {candidates : List ResolvedOrder} {ms : List OneToOneMatch}
    (h : search chain root now candidates = .ok ms) {m : OneToOneMatch} (hm : m ∈ ms) :
    m.order = root.order ∧ ∃ x, (OrderMatch.oneToOne m).PricedBy x now := by
  obtain ⟨c, -, hc⟩ := (mem_search h).1 hm
  exact pricedBy_matchCandidate hc

end OneToOne

namespace OneToMany

theorem pricedBy_gives {p : FlowPass} {now : UInt64} {record : OneToManyMatch}
    (g : p.Gives now record) :
    record.order = p.root.order ∧ ∃ x, (OrderMatch.oneToMany record).PricedBy x now := by
  obtain ⟨clearing, hclearing, hrecord⟩ := g.made
  simp only [FlowPass.clearing?] at hclearing
  obtain ⟨found, hfound, hclearing⟩ := bind_eq_ok.1 hclearing
  cases found with
  | none => cases hclearing
  | some x =>
    subst hrecord
    refine ⟨rfl, x, OrderMatch.pricedBy_of_resolve hfound ?_ hclearing rfl rfl⟩
    exact Order.clears_combinedIntersection hfound

theorem pricedBy_records {chain : PolicyChain} {root : ResolvedOrder}
    {candidates : List ResolvedOrder} {now : UInt64} {ms : List OneToManyMatch}
    (h : (start chain root candidates now).records = .ok ms) {m : OneToManyMatch} (hm : m ∈ ms) :
    m.order = root.order ∧ ∃ x, (OrderMatch.oneToMany m).PricedBy x now := by
  obtain ⟨⟨result, waiting⟩, hx, hok⟩ := mem_mapM h hm
  cases (show result = .ok m from hok)
  obtain ⟨t, u, hreach, hgive, -⟩ := reaches_drain hx
  obtain ⟨rest, p, -, hp, hgives⟩ :=
    ((runs_start chain root candidates now).reaches hreach).give_ok hgive
  obtain ⟨horder, hpriced⟩ := pricedBy_gives hgives
  exact ⟨horder.trans (congrArg _ hp.sound.sameRoot), hpriced⟩

end OneToMany

namespace Engine

/-- Every record of a search has the price and the instant of the intersection of its orders. -/
theorem pricedBy_of_mem_orderMatches (chain : PolicyChain) (config : MatcherConfig)
    (root : ResolvedOrder) (candidates : List ResolvedOrder) (now : UInt64)
    {outcome : SearchOutcome}
    (h : searchWithCandidates chain config root candidates now = .ok outcome)
    {m : OrderMatch} (hm : m ∈ outcome.orderMatches) :
    m.order = root.order ∧ ∃ x, m.PricedBy x now := by
  simp only [searchWithCandidates] at h
  obtain ⟨single, hsingle, h⟩ := bind_eq_ok.1 h
  have each : ∀ several : List OneToManyMatch, (∀ r ∈ several, r.order = root.order ∧
      ∃ x, (OrderMatch.oneToMany r).PricedBy x now) →
      outcome.orderMatches = single.map .oneToOne ++ several.map .oneToMany →
      m.order = root.order ∧ ∃ x, m.PricedBy x now := by
    intro several hseveral hmatches
    rw [hmatches, List.mem_append, List.mem_map, List.mem_map] at hm
    cases hm with
    | inl hm =>
      obtain ⟨r, hr, rfl⟩ := hm
      exact OneToOne.pricedBy_search hsingle hr
    | inr hm =>
      obtain ⟨r, hr, rfl⟩ := hm
      exact hseveral r hr
  split at h
  · obtain ⟨several, hseveral, h⟩ := bind_eq_ok.1 h
    cases h
    exact each several (fun r hr => OneToMany.pricedBy_records hseveral hr) rfl
  · cases h
    exact each [] (fun r hr => by cases hr) rfl

def fallingBid : ResolvedOrder :=
  let price : PriceCurve := ⟨.ofUInt32 9, .ofUInt32 1, 0, 10⟩
  let o : Order := { id := "bid", side := .buy, numItems := 1, price }
  ⟨o, [(o.item "bid-1" "c").withToken "1"]⟩

def risingAsk : ResolvedOrder :=
  let price : PriceCurve := ⟨.zero, .ofUInt32 8, 0, 10⟩
  let o : Order := { id := "ask", side := .sell, numItems := 1, price }
  ⟨o, [(o.item "ask-1" "c").withToken "1"]⟩

theorem pricedBy_fallingBid :
    ∃ m, searchWithCandidates .default {} fallingBid [risingAsk] 3 = .ok ⟨[m], []⟩ ∧
      m.order = fallingBid.order ∧ ∃ x, m.PricedBy x 3 := by
  obtain ⟨m, hm⟩ : ∃ m, searchWithCandidates .default {} fallingBid [risingAsk] 3 =
      .ok ⟨[m], []⟩ := ⟨_, rfl⟩
  exact ⟨m, hm, pricedBy_of_mem_orderMatches .default {} fallingBid [risingAsk] 3 hm
    List.mem_cons_self⟩

end Engine

end OrderBook

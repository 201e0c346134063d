import OrderBook.Proofs.Search.BruteForce

/-!
Orders that are left to a search from their own side. A root of one token leaves all larger candidates,
whether it is filled by them or not: a larger order may sell it one of several tokens, and what is left
of the order is for the search from its side. Where the larger order would be used up, the root has as
many items as it.
-/

namespace OrderBook

namespace Engine

variable {chain : PolicyChain} {config : MatcherConfig} {root : ResolvedOrder}
  {candidates : List ResolvedOrder} {now : UInt64} {outcome : SearchOutcome} {o : Order}

theorem mem_requiresScan : o ∈ requiresScan root candidates ↔
    root.order.numItems = 1 ∧ ∃ c ∈ candidates, c.order = o ∧ 1 < o.numItems := by
  rw [requiresScan]
  split
  · rename_i hsingle
    simp only [hsingle, List.mem_map, List.mem_filter, decide_eq_true_eq, true_and]
    constructor
    · rintro ⟨c, ⟨hc, hlarge⟩, rfl⟩
      exact ⟨c, hc, rfl, hlarge⟩
    · rintro ⟨c, hc, rfl, hlarge⟩
      exact ⟨c, ⟨hc, hlarge⟩, rfl⟩
  · rename_i hsingle
    simp [hsingle]

theorem requiresScan_of_search
    (h : searchWithCandidates chain config root candidates now = .ok outcome) :
    outcome.requiresScan = requiresScan root candidates := by
  obtain ⟨single, -, h⟩ := bind_eq_ok.1 h
  dsimp only at h
  split at h
  · obtain ⟨several, -, h⟩ := bind_eq_ok.1 h
    rw [← pure_eq_ok.1 h]
  · rw [← pure_eq_ok.1 h]

theorem oneToMany_of_single (h : searchWithCandidates chain config root candidates now = .ok outcome)
    (hsingle : root.order.numItems = 1) : outcome.oneToMany = [] := by
  have hroot : root.isEligibleRoot = false := by
    simp [ResolvedOrder.isEligibleRoot, hsingle]
  have hmany := (searchWithCandidates_eq_ok h).2
  rwa [hroot, Bool.and_false, if_neg Bool.false_ne_true] at hmany

/-- An order that is left to a search from its own side is a larger candidate of a root of one token,
and every such candidate is left. It stands in a record of the same search only as the one opposing
order: with no more pairs than the root has items, and no more than it sells or no fewer than it buys.
So if the root has fewer items than the order has tokens, then the order sells, and something of it is
left. -/
theorem requiresScan_leftover (chain : PolicyChain) (config : MatcherConfig) (root : ResolvedOrder)
    {candidates : List ResolvedOrder} (hids : (candidates.map (·.id)).Nodup) (now : UInt64)
    {outcome : SearchOutcome}
    (h : searchWithCandidates chain config root candidates now = .ok outcome) :
    (∀ o, o ∈ outcome.requiresScan ↔
      root.order.numItems = 1 ∧ ∃ c ∈ candidates, c.order = o ∧ 1 < o.numItems) ∧
    ∀ o ∈ outcome.requiresScan, ∀ m ∈ outcome.orderMatches, o.id ∈ m.opposingOrders.map (·.id) →
      ∃ r, m = .oneToOne r ∧ r.opposingOrder = o ∧
        1 ≤ r.pairs.length ∧ r.pairs.length ≤ root.items.length ∧
        (o.side = .sell → r.pairs.length ≤ o.numItems.toNat) ∧
        (o.side = .buy → o.numItems.toNat ≤ r.pairs.length) ∧
        (root.items.length < o.numItems.toNat →
          o.side = .sell ∧ r.pairs.length < o.numItems.toNat) := by
  have hlisted : ∀ o, o ∈ outcome.requiresScan ↔
      root.order.numItems = 1 ∧ ∃ c ∈ candidates, c.order = o ∧ 1 < o.numItems := by
    intro o
    rw [requiresScan_of_search h, mem_requiresScan]
  refine ⟨hlisted, fun o ho m hm hopposing => ?_⟩
  obtain ⟨hsingle, c, hc, rfl, -⟩ := (hlisted o).1 ho
  cases m with
  | oneToMany m =>
    have hmany := SearchOutcome.mem_oneToMany.2 hm
    rw [oneToMany_of_single h hsingle] at hmany
    cases hmany
  | oneToOne r =>
    obtain ⟨d, hd, hr⟩ := oneToOne_of_search h hm
    obtain ⟨-, x, p, clearing, -, hp, -, rfl⟩ := OneToOne.matchCandidate_eq_some hr
    obtain rfl : c = d :=
      List.inj_on_of_nodup_map hids hc hd (List.mem_singleton.1 hopposing)
    have pairs := OneToOne.pairs_of_pairing? hp
    have hlength : (OneToOne.itemPairs root c p).length = p.length := pairs.length_itemPairs
    obtain ⟨hroot, hbuy, hsell⟩ := OneToOne.fills_iff.1 pairs.fills
    have hone : root.order.numItems.toNat = 1 := congrArg UInt32.toNat hsingle
    have hle := pairs.length_le
    refine ⟨_, rfl, rfl, ?_⟩
    dsimp only [OneToOneMatch.make]
    rw [hlength]
    refine ⟨hone ▸ hroot, hle, hsell, hbuy, fun hfew => ?_⟩
    have hside : c.order.side = .sell := by
      cases hs : c.order.side with
      | sell => rfl
      | buy => exact absurd (hbuy hs) (by omega)
    exact ⟨hside, by omega⟩

def bidForAny : ResolvedOrder :=
  let o : Order := { id := "bid", side := .buy, numItems := 1, price := ⟨.ofUInt32 3, .ofUInt32 3, 0, 100⟩ }
  ⟨o, [o.item "bid-1" "c"]⟩

def bundle : ResolvedOrder :=
  let o : Order :=
    { id := "bundle", side := .sell, numItems := 2, price := ⟨.ofUInt32 2, .ofUInt32 2, 0, 100⟩ }
  ⟨o, [(o.item "bundle-1" "c").withToken "1", (o.item "bundle-2" "c").withToken "2"]⟩

theorem search_bidForAny : ∃ r, searchWithCandidates .default {} bidForAny [bundle] 0 =
    .ok ⟨[.oneToOne r], [bundle.order]⟩ ∧ r.opposingOrder = bundle.order := ⟨_, rfl, rfl⟩

/-- The bid takes one token of the bundle, and one is left. -/
theorem requiresScan_leftover_bundle : ([bundle].map (·.id)).Nodup ∧
    ∃ outcome, searchWithCandidates .default {} bidForAny [bundle] 0 = .ok outcome ∧
      bundle.order ∈ outcome.requiresScan ∧ ∃ r, .oneToOne r ∈ outcome.orderMatches ∧
        r.opposingOrder = bundle.order ∧ r.pairs.length = 1 ∧ bundle.order.numItems = 2 := by
  have hids : ([bundle].map (·.id)).Nodup := List.pairwise_singleton _ _
  obtain ⟨r, h, hopposing⟩ := search_bidForAny
  obtain ⟨hlisted, hleft⟩ := requiresScan_leftover .default {} bidForAny hids 0 h
  have hscan : bundle.order ∈ [bundle.order] :=
    (hlisted bundle.order).2 ⟨rfl, bundle, List.mem_cons_self, rfl, by decide⟩
  have hid : bundle.order.id ∈ (OrderMatch.oneToOne r).opposingOrders.map (·.id) :=
    List.mem_singleton.2 (congrArg Order.id hopposing).symm
  obtain ⟨r', hr', -, hfrom, hto, -⟩ := hleft bundle.order hscan (.oneToOne r) List.mem_cons_self hid
  cases hr'
  exact ⟨hids, _, h, hscan, r, List.mem_cons_self, hopposing, Nat.le_antisymm hto hfrom, rfl⟩

/-- An order may be in a record and be left all the same. -/
theorem matched_bundle_requiresScan : ([bundle].map (·.id)).Nodup ∧ ∃ outcome m,
    searchWithCandidates .default {} bidForAny [bundle] 0 = .ok outcome ∧
      m ∈ outcome.orderMatches ∧ bundle.order ∈ m.opposingOrders ∧
      bundle.order ∈ outcome.requiresScan := by
  obtain ⟨r, h, hopposing⟩ := search_bidForAny
  refine ⟨List.pairwise_singleton _ _, _, .oneToOne r, h, List.mem_cons_self, ?_,
    List.mem_cons_self⟩
  exact List.mem_singleton.2 hopposing.symm

end Engine

end OrderBook

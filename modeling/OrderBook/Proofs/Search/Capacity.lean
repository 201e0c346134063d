import OrderBook.Order.Validation
import OrderBook.Proofs.Query.Narrowing
import OrderBook.Proofs.Search.Pairings

/-!
How much a one-to-one record moves. Of the two orders: at least what the buyer asks for, but at most what
the seller offers only where the seller is the candidate or has no more items that go together with the
bid. Of each item: one token at most, which is within its contribution unless the item pins a token and
has none of it.
-/

namespace OrderBook

theorem Order.side_eq_opposite {a b : Order} {x : PriceIntersection}
    (h : a.intersection b = .ok (some x)) : b.side = a.side.opposite := by
  rw [intersection] at h
  split at h
  · rename_i ha hb
    rw [ha, hb]
    rfl
  · rename_i ha hb
    rw [ha, hb]
    rfl
  · cases h

namespace OneToOne

variable {chain : PolicyChain} {root candidate : ResolvedOrder} {now : UInt64} {r : OneToOneMatch}

/-! What the two orders move -/

/-- The number of tokens that the buyer among a root and a candidate on the other side asks for. -/
def asked (root candidate : ResolvedOrder) : Nat :=
  match root.order.side with
  | .buy => root.order.numItems.toNat
  | .sell => candidate.order.numItems.toNat

def offered (root candidate : ResolvedOrder) : Nat :=
  match root.order.side with
  | .buy => candidate.order.numItems.toNat
  | .sell => root.order.numItems.toNat

/-- The items of a root and a candidate cannot be paired beyond what the seller offers. -/
def PairsWithinOffer (chain : PolicyChain) (root candidate : ResolvedOrder) : Prop :=
  ∃ rows, compatibility chain root.items candidate.items = .ok rows ∧
    ∀ q, Pairing.Allowed rows q → q.length ≤ offered root candidate

theorem pairs_of_matchCandidate (h : matchCandidate chain root candidate now = .ok (some r)) :
    candidate.order.side = root.order.side.opposite ∧
      ∃ p, pairing? chain root candidate = .ok (some p) ∧ r.pairs = itemPairs root candidate p := by
  obtain ⟨-, x, p, clearing, hx, hp, -, rfl⟩ := matchCandidate_eq_some h
  exact ⟨Order.side_eq_opposite hx, p, hp, rfl⟩

/-- A pairing with a buying candidate is a longest one of all. -/
theorem pairsWithinOffer_iff {p : Pairing} (hp : pairing? chain root candidate = .ok (some p))
    (hbuy : candidate.order.side = .buy) :
    PairsWithinOffer chain root candidate ↔ p.length ≤ offered root candidate := by
  obtain ⟨rows, hrows, rfl, -⟩ := pairing?_eq_some hp
  have hbest := firstLongest_of_compatibility hrows
  have huncapped : ∀ n, ∀ c ∈ (bounds root candidate).cap, n ≤ c :=
    fun n => within_bounds_iff.2 fun hsell => by rw [hbuy] at hsell; cases hsell
  constructor
  · rintro ⟨rows', hrows', hall⟩
    rw [hrows] at hrows'
    cases hrows'
    exact hall _ hbest.allowed
  · exact fun hle => ⟨rows, hrows, fun q hq => Nat.le_trans (hbest.longest q hq (huncapped _)) hle⟩

/-- A record moves at least as many tokens as the buyer asks for. It moves at most as many as the seller
offers if the root buys; if the root sells, exactly if the items cannot be paired beyond that. -/
theorem asked_le_pairs_le_offered (chain : PolicyChain) (root candidate : ResolvedOrder) (now : UInt64)
    {r : OneToOneMatch} (h : matchCandidate chain root candidate now = .ok (some r)) :
    candidate.order.side = root.order.side.opposite ∧
      asked root candidate ≤ r.pairs.length ∧
      (r.pairs.length ≤ offered root candidate ↔
        root.order.side = .buy ∨ PairsWithinOffer chain root candidate) := by
  obtain ⟨hsides, p, hp, hpairs⟩ := pairs_of_matchCandidate h
  have pairs := pairs_of_pairing? hp
  obtain ⟨hroot, hbuy, hsell⟩ := fills_iff.1 pairs.fills
  rw [hpairs, pairs.length_itemPairs]
  refine ⟨hsides, ?_⟩
  cases hside : root.order.side with
  | buy =>
    have hcandidate : candidate.order.side = .sell := by rw [hsides, hside]; rfl
    have hcapped := hsell hcandidate
    rw [asked, offered, hside]
    exact ⟨hroot, fun _ => .inl rfl, fun _ => hcapped⟩
  | sell =>
    have hcandidate : candidate.order.side = .buy := by rw [hsides, hside]; rfl
    rw [pairsWithinOffer_iff hp hcandidate, asked, hside]
    exact ⟨hbuy hcandidate, .inr, fun h => h.resolve_left (by decide)⟩

theorem asked_le_pairs_le_offered_askForBoth :
    ∃ r, matchCandidate .default askForBoth bidForAnyAndOne 0 = .ok (some r) ∧
      2 ≤ r.pairs.length ∧ r.pairs.length ≤ 2 := by
  obtain ⟨r, h⟩ : ∃ r, matchCandidate .default askForBoth bidForAnyAndOne 0 = .ok (some r) := ⟨_, rfl⟩
  obtain ⟨-, hasked, hoffered⟩ := asked_le_pairs_le_offered .default askForBoth bidForAnyAndOne 0 h
  refine ⟨r, h, hasked, hoffered.2 (.inr ⟨[[true, true], [true, false]], rfl, fun q hq => ?_⟩)⟩
  exact hq.length_le_rows

/-- An ask for one token, which is token 1 of a collection or any token of another one. -/
def askForEither : ResolvedOrder :=
  let o : Order :=
    { id := "ask", side := .sell, numItems := 1, price := ⟨.ofUInt32 2, .ofUInt32 2, 0, 100⟩ }
  ⟨o, [(o.item "ask-1" "c").withToken "1", o.item "ask-any" "d"]⟩

def bidForEach : ResolvedOrder :=
  let o : Order :=
    { id := "bid", side := .buy, numItems := 2, price := ⟨.ofUInt32 6, .ofUInt32 6, 0, 100⟩ }
  ⟨o, [(o.item "bid-1" "c").withToken "1", (o.item "bid-2" "d").withToken "2"]⟩

/-- A selling root hands over more than it offers, where as a candidate for the same bid it is turned
down. -/
theorem askForEither_hands_over_two :
    (∃ r, matchCandidate .default askForEither bidForEach 0 = .ok (some r) ∧
      offered askForEither bidForEach = 1 ∧ r.pairs.length = 2) ∧
    matchCandidate .default bidForEach askForEither 0 = .ok none :=
  ⟨⟨_, rfl, rfl, rfl⟩, rfl⟩

end OneToOne

/-! What the items contribute -/

namespace OrderItem

variable {i a b : OrderItem}

theorem numItems_ne_zero_of_unitPrice {c : PriceCurve} (h : i.unitPrice = .ok c) : i.numItems ≠ 0 := by
  intro hzero
  rw [unitPrice, PriceCurve.perItem, if_pos hzero] at h
  cases h

theorem numItems_ne_zero_of_intersection {x : PriceIntersection}
    (h : a.intersection b = .ok (some x)) : a.numItems ≠ 0 ∧ b.numItems ≠ 0 := by
  have each : ∀ {bid ask : OrderItem}, intersectUnits bid ask = .ok (some x) →
      bid.numItems ≠ 0 ∧ ask.numItems ≠ 0 := by
    intro bid ask h
    obtain ⟨c, hc, h⟩ := bind_eq_ok.1 h
    obtain ⟨d, hd, -⟩ := bind_eq_ok.1 h
    exact ⟨numItems_ne_zero_of_unitPrice hc, numItems_ne_zero_of_unitPrice hd⟩
  rw [intersection] at h
  split at h
  · exact each h
  · exact (each h).symm
  · cases h

theorem one_le_maxContribution_iff (hsize : i.numItems ≠ 0) :
    1 ≤ i.maxContribution.toNat ↔ (i.pinsToken = true → i.numTokens ≠ 0) := by
  have hpositive : ∀ {n : UInt32}, n ≠ 0 → 1 ≤ n.toNat := fun hn =>
    Nat.pos_of_ne_zero fun hzero => hn (UInt32.toNat_inj.1 hzero)
  rw [maxContribution]
  split
  · rename_i hpins
    constructor
    · rintro hle - hnone
      have hmin : min i.numTokens i.numItems = 0 := by
        rw [hnone]
        exact if_pos (UInt32.le_iff_toNat_le.2 (Nat.zero_le _))
      rw [hmin] at hle
      exact absurd hle (by decide)
    · intro htokens
      refine hpositive fun hmin => ?_
      rcases Std.min_eq_or (a := i.numTokens) (b := i.numItems) with h | h
      · exact htokens hpins (h ▸ hmin)
      · exact hsize (h ▸ hmin)
  · rename_i hpins
    exact ⟨fun _ h => absurd h hpins, fun _ => hpositive hsize⟩

end OrderItem

theorem PolicyChain.numItems_ne_zero_of_mutualMatch {chain : PolicyChain} {a b : OrderItem}
    (hprice : .price ∈ chain) (h : chain.mutualMatch a b = .ok true) :
    a.numItems ≠ 0 ∧ b.numItems ≠ 0 := by
  obtain ⟨yes, hyes, h⟩ := bind_eq_ok.1 h
  cases yes with
  | false => cases h
  | true =>
    have hcheck : Policy.priceMismatch? a b = .ok none := check_of_accepts hyes .price hprice
    rw [Policy.priceMismatch?] at hcheck
    split at hcheck
    · rename_i hx
      exact OrderItem.numItems_ne_zero_of_intersection hx
    · cases hcheck
    · split at hcheck <;> cases hcheck

namespace OneToOne

variable {chain : PolicyChain} {root candidate : ResolvedOrder} {p : Pairing}

/-- Items are used at most once each. That is within what an item contributes, unless it pins a token and
has none of it. -/
structure UsesOnce (items : List OrderItem) (uses : List Nat) : Prop where
  once : uses.Nodup
  within_iff : ∀ i a, items[i]? = some a →
    (uses.count i ≤ a.maxContribution.toNat ↔ (i ∈ uses → a.pinsToken = true → a.numTokens ≠ 0))

theorem usesOnce_of_nodup {items : List OrderItem} {uses : List Nat} (hnodup : uses.Nodup)
    (hsize : ∀ i ∈ uses, ∀ a, items[i]? = some a → a.numItems ≠ 0) : UsesOnce items uses := by
  refine ⟨hnodup, fun i a ha => ?_⟩
  by_cases hi : i ∈ uses
  · rw [List.count_eq_one_of_mem hnodup hi, OrderItem.one_le_maxContribution_iff (hsize i hi a ha)]
    exact ⟨fun h _ => h, fun h => h hi⟩
  · rw [List.count_eq_zero_of_not_mem hi]
    exact ⟨fun _ h => absurd h hi, fun _ => Nat.zero_le _⟩

theorem Pairs.usesOnce (h : Pairs chain root candidate p) (hprice : .price ∈ chain) :
    UsesOnce root.items (p.map (·.1)) ∧ UsesOnce candidate.items (p.map (·.2)) := by
  constructor
  · refine usesOnce_of_nodup (Pairing.nodup_of_ascending h.ascending) fun i hi a ha => ?_
    obtain ⟨x, hx, rfl⟩ := List.mem_map.1 hi
    obtain ⟨a', b, ha', -, hmatch⟩ := h.accepted x hx
    obtain rfl : a = a' := Option.some.inj (ha.symm.trans ha')
    exact (PolicyChain.numItems_ne_zero_of_mutualMatch hprice hmatch).1
  · refine usesOnce_of_nodup h.distinct fun j hj b hb => ?_
    obtain ⟨x, hx, rfl⟩ := List.mem_map.1 hj
    obtain ⟨a, b', -, hb', hmatch⟩ := h.accepted x hx
    obtain rfl : b = b' := Option.some.inj (hb.symm.trans hb')
    exact (PolicyChain.numItems_ne_zero_of_mutualMatch hprice hmatch).2

/-- The pairs of a record are for positions of items that match. Of each order it uses an item at most
once, which is within what the item contributes unless the item pins a token and has none of it. -/
theorem uses_items_once (root candidate : ResolvedOrder) (now : UInt64) {r : OneToOneMatch}
    (h : matchCandidate .default root candidate now = .ok (some r)) :
    ∃ p : Pairing,
      List.Forall₂ (PairAt .default root candidate) p r.pairs ∧
      UsesOnce root.items (p.map (·.1)) ∧ UsesOnce candidate.items (p.map (·.2)) := by
  obtain ⟨-, p, hp, hpairs⟩ := pairs_of_matchCandidate h
  have pairs := pairs_of_pairing? hp
  exact ⟨p, hpairs ▸ pairs.forall₂_itemPairs, pairs.usesOnce (by decide)⟩

theorem uses_items_once_askForBoth :
    ∃ r, matchCandidate .default bidForAnyAndOne askForBoth 0 = .ok (some r) ∧ ∃ p : Pairing,
      p.length = r.pairs.length ∧
      (∀ i a, bidForAnyAndOne.items[i]? = some a → (p.map (·.1)).count i ≤ a.maxContribution.toNat) ∧
      ∀ j b, askForBoth.items[j]? = some b → (p.map (·.2)).count j ≤ b.maxContribution.toNat := by
  obtain ⟨r, h⟩ : ∃ r, matchCandidate .default bidForAnyAndOne askForBoth 0 = .ok (some r) := ⟨_, rfl⟩
  obtain ⟨p, hpairs, hroot, hcandidate⟩ := uses_items_once bidForAnyAndOne askForBoth 0 h
  have hbid : ∀ a ∈ bidForAnyAndOne.items, a.numTokens ≠ 0 := by decide
  have hask : ∀ b ∈ askForBoth.items, b.numTokens ≠ 0 := by decide
  refine ⟨r, h, p, hpairs.length_eq, fun i a ha => ?_, fun j b hb => ?_⟩
  · exact (hroot.within_iff i a ha).2 fun _ _ => hbid a (List.mem_of_getElem? ha)
  · exact (hcandidate.within_iff j b hb).2 fun _ _ => hask b (List.mem_of_getElem? hb)

def bidForOne : ResolvedOrder :=
  let o : Order :=
    { id := "bid", side := .buy, numItems := 1, price := ⟨.ofUInt32 3, .ofUInt32 3, 0, 100⟩ }
  ⟨o, [(o.item "bid-1" "c").withToken "1"]⟩

/-- An ask for one token, with none of token 1 and one of token 2. -/
def askWithoutOne : ResolvedOrder :=
  let o : Order :=
    { id := "ask", side := .sell, numItems := 1, price := ⟨.ofUInt32 2, .ofUInt32 2, 0, 100⟩ }
  ⟨o, [{ (o.item "ask-1" "c").withToken "1" with numTokens := 0 },
    (o.item "ask-2" "c").withToken "2"]⟩

/-- An item without tokens is paired, though it contributes nothing. -/
theorem askWithoutOne_gives_one :
    askWithoutOne.order.fault? askWithoutOne.items = none ∧
    ∃ r pair, matchCandidate .default bidForOne askWithoutOne 0 = .ok (some r) ∧ r.pairs = [pair] ∧
      askWithoutOne.items[0]? = some pair.opposingOrderItem ∧
      pair.opposingOrderItem.maxContribution = 0 :=
  ⟨by decide, _, _, rfl, rfl, rfl, rfl⟩

end OneToOne

end OrderBook

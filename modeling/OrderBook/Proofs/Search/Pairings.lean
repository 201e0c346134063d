import OrderBook.Proofs.Positions
import OrderBook.Proofs.Search.BestPairing
import OrderBook.Proofs.Search.OneByOne

/-!
The pairing of a one-to-one record. It is the first of the longest pairings that the table of
compatibility allows and a selling candidate can serve, if that is as long as both orders call for. So it
takes the items of the root in order, each at most once, and no opposing item twice.
-/

namespace OrderBook

namespace OneToOne

variable {chain : PolicyChain} {root candidate : ResolvedOrder} {p : Pairing}

theorem pairing?_eq_some (h : pairing? chain root candidate = .ok (some p)) :
    ∃ rows, compatibility chain root.items candidate.items = .ok rows ∧
      p = Pairing.best (bounds root candidate) rows ∧ fills root candidate p.length = true := by
  obtain ⟨rows, hrows, h⟩ := bind_eq_ok.1 h
  have h := pure_eq_ok.1 h
  split at h
  · rename_i hfills
    cases h
    exact ⟨rows, hrows, rfl, hfills⟩
  · cases h

theorem mutualMatch_of_compatibility {root opposing : List OrderItem} {rows : List (List Bool)}
    (h : compatibility chain root opposing = .ok rows) {i j : Nat} {row : List Bool} {v : Bool}
    (hrow : rows[i]? = some row) (hv : row[j]? = some v) :
    ∃ a b, root[i]? = some a ∧ opposing[j]? = some b ∧ chain.mutualMatch a b = .ok v := by
  obtain ⟨a, ha, hrow'⟩ := getElem?_mapM h hrow
  obtain ⟨b, hb, hab⟩ := getElem?_mapM hrow' hv
  exact ⟨a, b, ha, hb, hab⟩

/-- The pairing of a candidate, seen from the items: every pair is there and accepted, no item is in
two of them, and there are as many as both orders call for. -/
structure Pairs (chain : PolicyChain) (root candidate : ResolvedOrder) (p : Pairing) : Prop where
  ascending : p.Pairwise fun x y => x.1 < y.1
  distinct : (p.map (·.2)).Nodup
  accepted : ∀ x ∈ p, ∃ a b, root.items[x.1]? = some a ∧ candidate.items[x.2]? = some b ∧
    chain.mutualMatch a b = .ok true
  fills : fills root candidate p.length = true

theorem size_of_compatibility {root opposing : List OrderItem} {rows : List (List Bool)}
    (h : compatibility chain root opposing = .ok rows) :
    rows.length = root.length ∧ ∀ row ∈ rows, row.length = opposing.length := by
  refine ⟨length_mapM h, fun row hrow => ?_⟩
  obtain ⟨a, -, ha⟩ := mem_mapM h hrow
  exact length_mapM ha

theorem firstLongest_of_compatibility {rows : List (List Bool)}
    (h : compatibility chain root.items candidate.items = .ok rows) :
    Pairing.FirstLongest (bounds root candidate).cap rows
      (Pairing.best (bounds root candidate) rows) := by
  obtain ⟨hlength, hrows⟩ := size_of_compatibility h
  have hbest := Pairing.firstLongest_best (bounds root candidate).cap hrows
  rwa [hlength] at hbest

theorem pairs_of_pairing? (h : pairing? chain root candidate = .ok (some p)) :
    Pairs chain root candidate p := by
  obtain ⟨rows, hrows, rfl, hfills⟩ := pairing?_eq_some h
  have hallowed := (firstLongest_of_compatibility hrows).allowed
  refine ⟨hallowed.ascending, hallowed.distinct, fun x hx => ?_, hfills⟩
  obtain ⟨row, hrow, hv⟩ := hallowed.compatible x hx
  exact mutualMatch_of_compatibility hrows hrow hv

theorem Pairs.length_le (h : Pairs chain root candidate p) : p.length ≤ root.items.length := by
  refine Pairing.length_le_of_ascending h.ascending fun x hx => ?_
  obtain ⟨a, -, ha, -, -⟩ := h.accepted x hx
  exact (List.getElem?_eq_some_iff.1 ha).1

theorem fills_iff {count : Nat} : fills root candidate count = true ↔
    root.order.numItems.toNat ≤ count ∧
      (candidate.order.side = .buy → candidate.order.numItems.toNat ≤ count) ∧
      (candidate.order.side = .sell → count ≤ candidate.order.numItems.toNat) := by
  rw [fills]
  cases candidate.order.side with
  | buy => simp
  | sell => simp

structure PairAt (chain : PolicyChain) (root candidate : ResolvedOrder) (x : Nat × Nat) (y : ItemPair) :
    Prop where
  orderItem : root.items[x.1]? = some y.orderItem
  opposingOrderItem : candidate.items[x.2]? = some y.opposingOrderItem
  matched : chain.mutualMatch y.orderItem y.opposingOrderItem = .ok true

theorem Pairs.forall₂_itemPairs (h : Pairs chain root candidate p) :
    List.Forall₂ (PairAt chain root candidate) p (itemPairs root candidate p) := by
  have hall : List.Forall₂ (PairAt chain root candidate) (p.map id) (itemPairs root candidate p) := by
    refine forall₂_map_filterMap fun x hx => ?_
    obtain ⟨a, b, ha, hb, hmatch⟩ := h.accepted x hx
    exact ⟨⟨a, b⟩, by simp [ha, hb], ha, hb, hmatch⟩
  rwa [List.map_id] at hall

theorem Pairs.length_itemPairs (h : Pairs chain root candidate p) :
    (itemPairs root candidate p).length = p.length :=
  h.forall₂_itemPairs.length_eq.symm

theorem within_bounds_iff {count : Nat} : (∀ c ∈ (bounds root candidate).cap, count ≤ c) ↔
    (candidate.order.side = .sell → count ≤ candidate.order.numItems.toNat) := by
  rw [bounds]
  cases candidate.order.side with
  | buy => simp
  | sell => simp

/-- The pairing of a candidate is the first of the longest that its table allows and it can serve, and
it is there whenever that is as long as both orders call for, so whenever any pairing fills them. For
a table of any size and any cap, the search settles on the first of the longest pairings. -/
theorem pairing?_eq_firstLongest :
    (∀ (rows : List (List Bool)) (columns : Nat) (cap : Option Nat),
      (∀ row ∈ rows, row.length = columns) → Pairing.FirstLongest cap rows
        (Pairing.best (.ofTable cap rows.length columns) rows)) ∧
    ∀ (chain : PolicyChain) (root candidate : ResolvedOrder) (rows : List (List Bool)),
      compatibility chain root.items candidate.items = .ok rows →
      (∃ answer, pairing? chain root candidate = .ok answer) ∧
      (∀ p, pairing? chain root candidate = .ok (some p) ↔
        Pairing.FirstLongest (bounds root candidate).cap rows p ∧
          root.order.numItems.toNat ≤ p.length ∧
          (candidate.order.side = .buy → candidate.order.numItems.toNat ≤ p.length)) ∧
      ((∃ q, Pairing.Allowed rows q ∧ fills root candidate q.length = true) →
        ∃ p, pairing? chain root candidate = .ok (some p)) := by
  refine ⟨fun rows columns cap hrows => Pairing.firstLongest_best cap hrows, ?_⟩
  intro chain root candidate rows hrows
  have hbest := firstLongest_of_compatibility hrows
  have hanswer : pairing? chain root candidate =
      .ok (if fills root candidate (Pairing.best (bounds root candidate) rows).length then
        some (Pairing.best (bounds root candidate) rows) else none) :=
    bind_eq_ok.2 ⟨rows, hrows, rfl⟩
  refine ⟨⟨_, hanswer⟩, fun p => ⟨fun hp => ?_, ?_⟩, ?_⟩
  · obtain ⟨rows', hrows', rfl, hfills⟩ := pairing?_eq_some hp
    rw [hrows] at hrows'
    cases hrows'
    obtain ⟨hroot, hbuy, -⟩ := fills_iff.1 hfills
    exact ⟨hbest, hroot, hbuy⟩
  · rintro ⟨hp, hroot, hbuy⟩
    obtain rfl := hp.unique hbest
    rw [hanswer, if_pos (fills_iff.2 ⟨hroot, hbuy, within_bounds_iff.1 hp.within⟩)]
  · rintro ⟨q, hq, hfills⟩
    obtain ⟨hroot, hbuy, hsell⟩ := fills_iff.1 hfills
    have hle := hbest.longest q hq (within_bounds_iff.2 hsell)
    have hbestfills : fills root candidate (Pairing.best (bounds root candidate) rows).length = true :=
      fills_iff.2 ⟨Nat.le_trans hroot hle, fun hside => Nat.le_trans (hbuy hside) hle,
        within_bounds_iff.1 hbest.within⟩
    exact ⟨_, by rw [hanswer, if_pos hbestfills]⟩

def bidForAnyAndOne : ResolvedOrder :=
  let o : Order :=
    { id := "bid", side := .buy, numItems := 2, price := ⟨.ofUInt32 3, .ofUInt32 3, 0, 100⟩ }
  ⟨o, [o.item "bid-any" "c", (o.item "bid-1" "c").withToken "1"]⟩

def askForBoth : ResolvedOrder :=
  let o : Order :=
    { id := "ask", side := .sell, numItems := 2, price := ⟨.ofUInt32 2, .ofUInt32 2, 0, 100⟩ }
  ⟨o, [(o.item "ask-1" "c").withToken "1", (o.item "ask-2" "c").withToken "2"]⟩

/-- Token 1, which the first item of the bid takes first, is given back for the second one. -/
theorem pairing?_eq_firstLongest_bidForAnyAndOne :
    compatibility .default bidForAnyAndOne.items askForBoth.items =
        .ok [[true, true], [true, false]] ∧
      Pairing.FirstLongest (some 2) [[true, true], [true, false]] [(0, 1), (1, 0)] ∧
      pairing? .default bidForAnyAndOne askForBoth = .ok (some [(0, 1), (1, 0)]) := by
  have htable : compatibility .default bidForAnyAndOne.items askForBoth.items =
      .ok [[true, true], [true, false]] := rfl
  obtain ⟨hall, hpairing⟩ := pairing?_eq_firstLongest
  have hfirst : Pairing.FirstLongest (some 2) [[true, true], [true, false]] [(0, 1), (1, 0)] :=
    hall [[true, true], [true, false]] 2 (some 2) (by decide)
  obtain ⟨-, hiff, -⟩ := hpairing .default bidForAnyAndOne askForBoth _ htable
  exact ⟨htable, hfirst, (hiff _).2 ⟨hfirst, by decide, by decide⟩⟩

end OneToOne

end OrderBook

import OrderBook.Proofs.Query.Narrowing
import OrderBook.Proofs.Search.OrderOfService

/-!
Pools of candidates with one item each, which pins its token. Under the default chain such an item
agrees with no more than one item of the root, so nobody has a choice. The first round of a pass then
gives the units of each item of the root to the first candidates that are linked to it.
-/

namespace OrderBook

-- The zero of sums is the literal.
attribute [local instance (high)] Zero.ofOfNat0

variable {root : ResolvedOrder} {pool : List ResolvedOrder} {a b : OrderItem}

/-- The token that an item pins, with its collection in one spelling. -/
def OrderItem.pin (a : OrderItem) : List Char × Option String :=
  (a.collection.toList.map Char.toLower, a.tokenId)

theorem pin_eq_of_agrees (h : PolicyChain.default.agrees a b = true) (ha : a.pinsToken = true)
    (hb : b.pinsToken = true) : a.pin = b.pin := by
  have hcheck := PolicyChain.check_of_accepts (PolicyChain.accepts_of_agrees h)
  have hcollection : sameAddress a.collection b.collection = true :=
    Policy.ok_require.1 (hcheck .collection (by decide))
  have htoken : ∀ t, a.tokenId = some t → b.tokenId = some t ∨ b.tokenId = none :=
    Policy.demands_of_check (hcheck .token (by decide))
  obtain ⟨t, ht⟩ := Option.isSome_iff_exists.1 ha
  have hsame : b.tokenId = some t := (htoken t ht).resolve_right (Option.isSome_iff_ne_none.1 hb)
  exact Prod.ext (beq_iff_eq.1 hcollection) (ht.trans hsame.symm)

/-- A candidate for one token, which its only item pins. -/
def IsPinned (r : ResolvedOrder) : Prop :=
  r.order.numItems = 1 ∧ r.items.length = 1 ∧ ∀ b ∈ r.items, b.pinsToken = true

instance (r : ResolvedOrder) : Decidable (IsPinned r) :=
  inferInstanceAs (Decidable (r.order.numItems = 1 ∧ r.items.length = 1 ∧
    ∀ b ∈ r.items, b.pinsToken = true))

theorem unambiguous_of_isPinned (hdistinct : (root.items.map OrderItem.pin).Nodup)
    (hpins : ∀ a ∈ root.items, a.pinsToken = true) (hpool : ∀ r ∈ pool, IsPinned r) :
    Unambiguous .default root pool := by
  intro r hr t ht u hu
  obtain ⟨-, hlength, hb⟩ := hpool r hr
  obtain ⟨b, hitems⟩ := List.length_eq_one_iff.1 hlength
  have hb := hb b (hitems ▸ List.mem_singleton_self b)
  have hpin : ∀ v ∈ offers .default root r,
      (root.items.map OrderItem.pin)[v.item]? = some b.pin := by
    intro v hv
    obtain ⟨a, c, ha, hc, hshare⟩ := mem_offers.1 hv
    rw [hitems] at hc
    obtain rfl := List.mem_singleton.1 (List.mem_of_getElem? hc)
    have hagree := (Bool.and_eq_true_iff.1 hshare).1
    rw [List.getElem?_map, ha, Option.map_some,
      pin_eq_of_agrees hagree (hpins a (List.mem_of_getElem? ha)) hb]
  obtain ⟨hlt, -⟩ := List.getElem?_eq_some_iff.1 (hpin t ht)
  exact (List.getElem?_inj hlt hdistinct).1 ((hpin t ht).trans (hpin u hu).symm)

namespace FlowPass

variable {p : FlowPass}

/-- After the first round of a pass the engaged candidates are, for each item of the root, the first
ones that are linked to it, as many as it has units. The round fills the root if and only if enough
candidates are linked to every item. -/
theorem first_linked_engaged (hroot : root.isEligibleRoot = true)
    (hdistinct : (root.items.map OrderItem.pin).Nodup) (hpool : ∀ r ∈ pool, IsPinned r)
    (hp : build .default root pool = .ok p) :
    (∀ j, j ∈ p.afterRound.engaged ↔ ∃ i a, root.items[i]? = some a ∧
      j ∈ (p.linkedTo i).take a.maxContribution.toNat) ∧
    (p.afterRound.judge p.afterRound.engaged = .ok (.filled p.afterRound.engaged) ↔
      ∀ i a, root.items[i]? = some a → a.maxContribution.toNat ≤ (p.linkedTo i).length) := by
  have hsingle : ∀ r ∈ pool, r.order.numItems = 1 := fun r hr => (hpool r hr).1
  have hpins : ∀ a ∈ root.items, a.pinsToken = true := fun a ha =>
    ((ResolvedOrder.isEligibleRoot_iff.1 hroot).2.2.1 a ha).1
  have hone := unambiguous_of_isPinned hdistinct hpins hpool
  have hsettled : Queue.Settled .default root (serveAll .default root pool) := .serveAll pool
  have g := ((follows_build hroot hsingle hp).afterRound hroot).1
  rw [← serveAll] at g
  have hmap := map_fst_serveAll .default root pool
  constructor
  · intro j
    rw [g.engaged, mem_takers]
    simp only [Nat.zero_add, exists_and_left, exists_eq_left']
    rw [hsettled.served_iff hone hmap]
    simp only [mem_take_linkedTo hroot hsingle hp, exists_and_left]
  · simp only [length_linkedTo hroot hsingle hp]
    rw [g.sound.judge_eq hsingle, g.sum_received, g.sound.layout.root.numItems_eq,
      ← hsettled.length_eq_iff hone hmap hroot]
    split
    · rename_i hfilled
      exact iff_of_true rfl hfilled
    · rename_i hunfilled
      exact iff_of_false (fun h => by cases h) hunfilled

end FlowPass

open OneToMany (askForOne)

def bidForThree : ResolvedOrder :=
  let price : Decimal := .ofUInt32 15
  let o : Order := { id := "bid", side := .buy, numItems := 3, price := ⟨price, price, 0, 100⟩ }
  let both : OrderItem := { (o.item "bid-1" "c").withToken "1" with numTokens := 2 }
  ⟨o, [both, (o.item "bid-2" "C").withToken "2"]⟩

/-- Three asks for token 1, one for token 2, and one for a token that nobody wants. -/
def pinnedAsks : List ResolvedOrder :=
  [askForOne "a" "1", askForOne "b" "3", askForOne "c" "1", askForOne "d" "1", askForOne "e" "2"]

/-- The third ask for token 1 comes too late. -/
theorem first_linked_bidForThree : bidForThree.isEligibleRoot = true ∧
    (bidForThree.items.map OrderItem.pin).Nodup ∧ (∀ r ∈ pinnedAsks, IsPinned r) ∧
    ∃ p, FlowPass.build .default bidForThree pinnedAsks = .ok p ∧
      p.linkedTo 0 = [0, 2, 3] ∧ p.linkedTo 1 = [4] ∧
      2 ∈ p.afterRound.engaged ∧ 3 ∉ p.afterRound.engaged ∧
      p.afterRound.judge p.afterRound.engaged = .ok (.filled p.afterRound.engaged) := by
  have hroot : bidForThree.isEligibleRoot = true := by decide +kernel
  have hdistinct : (bidForThree.items.map OrderItem.pin).Nodup := by decide +kernel
  have hpool : ∀ r ∈ pinnedAsks, IsPinned r := by decide +kernel
  obtain ⟨p, hp, hone, htwo⟩ : ∃ p, FlowPass.build .default bidForThree pinnedAsks = .ok p ∧
      p.linkedTo 0 = [0, 2, 3] ∧ p.linkedTo 1 = [4] := ⟨_, rfl, rfl, rfl⟩
  have hitems : ∀ i a, bidForThree.items[i]? = some a →
      i = 0 ∧ a.maxContribution.toNat = 2 ∨ i = 1 ∧ a.maxContribution.toNat = 1 := by
    intro i a ha
    match i with
    | 0 =>
      cases ha
      exact .inl ⟨rfl, rfl⟩
    | 1 =>
      cases ha
      exact .inr ⟨rfl, rfl⟩
    | i + 2 => cases ha
  obtain ⟨hengaged, hfilled⟩ := FlowPass.first_linked_engaged hroot hdistinct hpool hp
  refine ⟨hroot, hdistinct, hpool, p, hp, hone, htwo, (hengaged 2).2 ?_, fun h => ?_,
    hfilled.2 fun i a ha => ?_⟩
  · exact ⟨0, _, rfl, by rw [hone]; decide⟩
  · obtain ⟨i, a, ha, hj⟩ := (hengaged 3).1 h
    rcases hitems i a ha with ⟨rfl, hunits⟩ | ⟨rfl, hunits⟩
    · rw [hone, hunits] at hj
      exact absurd hj (by decide)
    · rw [htwo, hunits] at hj
      exact absurd hj (by decide)
  · rcases hitems i a ha with ⟨rfl, hunits⟩ | ⟨rfl, hunits⟩
    · rw [hone, hunits]
      decide
    · rw [htwo, hunits]
      decide

end OrderBook

import OrderBook.Order.Validation
import OrderBook.Proofs.CountSums
import OrderBook.Proofs.Results
import OrderBook.Proofs.Sums

/-!
What the items of an order contribute. The checked sum of counts is the sum, and it fails exactly where
the sum is no count. So the check of an order against its items is exact counting, and the items of a
root that several orders may fill add up to exactly the number of tokens that it asks for.
-/

namespace OrderBook

-- The zero of sums is the literal.
attribute [local instance (high)] Zero.ofOfNat0

theorem contribution?_eq_some {items : List OrderItem} {c : UInt32} :
    contribution? items = some c ↔ (items.map (·.maxContribution.toNat)).sum = c.toNat := by
  rw [contribution?]
  rw [foldlM_addCounts?_eq_some]
  simp

theorem contribution?_eq_none {items : List OrderItem} :
    contribution? items = none ↔ UInt32.size ≤ (items.map (·.maxContribution.toNat)).sum := by
  constructor
  · intro h
    refine Nat.not_lt.1 fun hlt => ?_
    have hcount : (UInt32.ofNat (items.map (·.maxContribution.toNat)).sum).toNat =
        (items.map (·.maxContribution.toNat)).sum := by
      simpa using Nat.mod_eq_of_lt hlt
    have hsome := contribution?_eq_some.2 hcount.symm
    rw [h] at hsome
    cases hsome
  · intro hsize
    cases h : contribution? items with
    | none => rfl
    | some c =>
      rw [contribution?_eq_some.1 h] at hsize
      exact absurd c.toNat_lt (Nat.not_lt.2 hsize)

theorem isFullySpecified_iff {items : List OrderItem} :
    isFullySpecified items = true ↔ items ≠ [] ∧ ∀ i ∈ items, i.pinsToken = true := by
  simp [isFullySpecified]

namespace Order

variable {o : Order} {items : List OrderItem}

/-- What the check of an order against its items comes to. A cause counts only where none of those
before it does, and of the items of other orders the first one is named. -/
inductive Checked (o : Order) (items : List OrderItem) : Option OrderFault → Prop
  | zeroItems (h : o.numItems = 0) : Checked o items (some .zeroItems)
  | foreignItem {before after : List OrderItem} {i : OrderItem} (hsize : o.numItems ≠ 0)
    (hitems : items = before ++ i :: after) (hbefore : ∀ j ∈ before, j.orderId = o.id)
    (h : i.orderId ≠ o.id) : Checked o items (some (.foreignItem i.id i.orderId))
  | unspecified (hsize : o.numItems ≠ 0) (hown : ∀ i ∈ items, i.orderId = o.id)
    (h : isFullySpecified items = false) : Checked o items none
  | overflow (hsize : o.numItems ≠ 0) (hown : ∀ i ∈ items, i.orderId = o.id)
    (hfull : isFullySpecified items = true)
    (h : UInt32.size ≤ (items.map (·.maxContribution.toNat)).sum) :
    Checked o items (some .contributionOverflow)
  | mismatch {c : UInt32} (hsize : o.numItems ≠ 0) (hown : ∀ i ∈ items, i.orderId = o.id)
    (hfull : isFullySpecified items = true)
    (hsum : (items.map (·.maxContribution.toNat)).sum = c.toNat) (h : c ≠ o.numItems) :
    Checked o items (some (.contributionMismatch o.numItems c))
  | exact (hsize : o.numItems ≠ 0) (hown : ∀ i ∈ items, i.orderId = o.id)
    (hfull : isFullySpecified items = true)
    (h : (items.map (·.maxContribution.toNat)).sum = o.numItems.toNat) : Checked o items none

theorem checked_fault? (o : Order) (items : List OrderItem) : o.Checked items (o.fault? items) := by
  rw [fault?]
  split
  · rename_i hzero
    exact .zeroItems hzero
  · rename_i hsize
    cases hforeign : items.find? fun i => i.orderId != o.id with
    | some i =>
      obtain ⟨hi, before, after, hitems, hbefore⟩ := List.find?_eq_some_iff_append.1 hforeign
      exact .foreignItem hsize hitems (by simpa using hbefore) (by simpa using hi)
    | none =>
      have hown : ∀ i ∈ items, i.orderId = o.id := by simpa using List.find?_eq_none.1 hforeign
      cases hfull : isFullySpecified items with
      | false => exact .unspecified hsize hown hfull
      | true =>
        cases hc : contribution? items with
        | none => exact .overflow hsize hown hfull (contribution?_eq_none.1 hc)
        | some c =>
          have hsum := contribution?_eq_some.1 hc
          by_cases heq : c = o.numItems
          · simpa [heq] using Checked.exact hsize hown hfull (heq ▸ hsum)
          · simpa [heq] using Checked.mismatch hsize hown hfull hsum heq

theorem fault?_eq_none_iff : o.fault? items = none ↔ o.numItems ≠ 0 ∧
    (∀ i ∈ items, i.orderId = o.id) ∧ (isFullySpecified items = true →
      (items.map (·.maxContribution.toNat)).sum = o.numItems.toNat) := by
  have hchecked := o.checked_fault? items
  generalize o.fault? items = found at hchecked
  cases hchecked with
  | zeroItems h => simp [h]
  | foreignItem hsize hitems hbefore h =>
    refine iff_of_false nofun fun hnone => h (hnone.2.1 _ ?_)
    simp [hitems]
  | unspecified hsize hown h => exact iff_of_true rfl ⟨hsize, hown, by simp [h]⟩
  | overflow hsize hown hfull h =>
    refine iff_of_false nofun fun hnone => ?_
    rw [hnone.2.2 hfull] at h
    exact absurd o.numItems.toNat_lt (Nat.not_lt.2 h)
  | mismatch hsize hown hfull hsum h =>
    refine iff_of_false nofun fun hnone => h (UInt32.toNat_inj.1 ?_)
    rw [← hsum, hnone.2.2 hfull]
  | exact hsize hown hfull h => exact iff_of_true rfl ⟨hsize, hown, fun _ => h⟩

theorem validate_eq_ok : o.validate items = .ok () ↔ o.fault? items = none := by
  rw [validate]
  cases o.fault? items <;> simp

end Order

theorem ResolvedOrder.isEligibleRoot_iff {r : ResolvedOrder} :
    r.isEligibleRoot = true ↔ 1 < r.order.numItems ∧ r.items ≠ [] ∧
      (∀ i ∈ r.items, i.pinsToken = true ∧ i.orderId = r.order.id) ∧
      (r.items.map (·.maxContribution.toNat)).sum = r.order.numItems.toNat := by
  have hzero : 1 < r.order.numItems → r.order.numItems ≠ 0 := by
    intro h e
    rw [e] at h
    exact absurd h (by decide)
  rw [isEligibleRoot, isFullySpecified]
  simp only [Bool.and_eq_true, decide_eq_true_eq, Option.isNone_iff_eq_none, isFullySpecified_iff,
    Order.fault?_eq_none_iff]
  constructor
  · rintro ⟨⟨hsize, hnil, hpins⟩, -, hown, hsum⟩
    exact ⟨hsize, hnil, fun i hi => ⟨hpins i hi, hown i hi⟩, hsum ⟨hnil, hpins⟩⟩
  · rintro ⟨hsize, hnil, hitems, hsum⟩
    exact ⟨⟨hsize, hnil, fun i hi => (hitems i hi).1⟩, hzero hsize, fun i hi => (hitems i hi).2,
      fun _ => hsum⟩

namespace ResolvedOrder

variable {r : ResolvedOrder}

theorem numItems_pos (hroot : r.isEligibleRoot = true) : 0 < r.order.numItems.toNat :=
  Nat.lt_trans Nat.zero_lt_one (UInt32.lt_iff_toNat_lt.1 (isEligibleRoot_iff.1 hroot).1)

def bound (r : ResolvedOrder) (i : Nat) : Nat := ((r.items[i]?).map (·.maxContribution.toNat)).getD 0

theorem bound_eq {i : Nat} {a : OrderItem} (ha : r.items[i]? = some a) :
    r.bound i = a.maxContribution.toNat := by
  rw [bound, ha]
  rfl

theorem sum_bound (hroot : r.isEligibleRoot = true) :
    ((List.range r.items.length).map r.bound).sum = r.order.numItems.toNat := by
  obtain ⟨-, -, -, hcontribution⟩ := isEligibleRoot_iff.1 hroot
  rw [← hcontribution]
  refine congrArg List.sum (List.ext_getElem (by simp) fun i hi _ => ?_)
  have hi : i < r.items.length := by simpa using hi
  simp [bound, hi]

/-- A use of the items of a root that reaches what the root asks for uses every item up. -/
theorem bound_eq_of_sum (hroot : r.isEligibleRoot = true) {use : Nat → Nat}
    (hle : ∀ i a, r.items[i]? = some a → use i ≤ a.maxContribution.toNat)
    (hsum : r.order.numItems.toNat ≤ ((List.range r.items.length).map use).sum) {i : Nat}
    {a : OrderItem} (ha : r.items[i]? = some a) : use i = a.maxContribution.toNat := by
  have hbound : ∀ i ∈ List.range r.items.length, use i ≤ r.bound i := by
    intro i hi
    have hi := List.getElem?_eq_getElem (List.mem_range.1 hi)
    rw [bound_eq hi]
    exact hle i _ hi
  obtain ⟨hi, -⟩ := List.getElem?_eq_some_iff.1 ha
  rw [eq_of_sum_eq hbound (sum_bound hroot ▸ hsum) i (List.mem_range.2 hi), bound_eq ha]

end ResolvedOrder

/-! The check as counting -/

namespace Order

theorem one_le_numItems_iff {o : Order} : 1 ≤ o.numItems ↔ o.numItems ≠ 0 := by
  rw [UInt32.le_iff_toNat_le, Ne, ← UInt32.toNat_inj]
  exact Nat.one_le_iff_ne_zero

/-- Checking an order against its items is exact counting. The check passes exactly if the order asks
for something, all items are its own and, where there are items and all of them pin their tokens, they
contribute together what the order asks for. A running sum of contributions that is no count any more is
an error whatever items follow. A root that several orders may fill passes the check, pins all of at
least one token and asks for more than one. -/
theorem validate_counts_exactly (o : Order) (items : List OrderItem) :
    (o.validate items = .ok () ↔ 1 ≤ o.numItems ∧ (∀ i ∈ items, i.orderId = o.id) ∧
      (items ≠ [] → (∀ i ∈ items, i.pinsToken = true) →
        (items.map (·.maxContribution.toNat)).sum = o.numItems.toNat)) ∧
    (∀ done rest, items = done ++ rest → (∀ i ∈ items, i.pinsToken = true) →
      UInt32.size ≤ (done.map (·.maxContribution.toNat)).sum →
      ∃ f : OrderFault, o.validate items = .error (.invalidOrder o.id f.reason) ∧
        (1 ≤ o.numItems → (∀ i ∈ items, i.orderId = o.id) → f = .contributionOverflow)) ∧
    ((ResolvedOrder.mk o items).isEligibleRoot = true ↔ 2 ≤ o.numItems ∧ items ≠ [] ∧
      (∀ i ∈ items, i.pinsToken = true) ∧ (∀ i ∈ items, i.orderId = o.id) ∧
      (items.map (·.maxContribution.toNat)).sum = o.numItems.toNat) := by
  refine ⟨?_, fun done rest hitems hpins hover => ?_, ?_⟩
  · rw [validate_eq_ok, fault?_eq_none_iff, one_le_numItems_iff, isFullySpecified_iff, and_imp]
  · have hsum : UInt32.size ≤ (items.map (·.maxContribution.toNat)).sum := by
      rw [hitems, List.map_append, List.sum_append]
      exact Nat.le_add_right_of_le hover
    have hnil : items ≠ [] := by
      rintro rfl
      exact absurd hsum (by decide)
    have hfull : isFullySpecified items = true := isFullySpecified_iff.2 ⟨hnil, hpins⟩
    have hchecked := o.checked_fault? items
    simp only [validate]
    generalize o.fault? items = found at hchecked
    cases hchecked with
    | zeroItems h => exact ⟨_, rfl, fun hsize => absurd h (one_le_numItems_iff.1 hsize)⟩
    | foreignItem hsize hsplit hbefore h =>
      refine ⟨_, rfl, fun _ hown => absurd (hown _ ?_) h⟩
      simp [hsplit]
    | unspecified hsize hown h => simp [hfull] at h
    | overflow hsize hown hfull h => exact ⟨_, rfl, fun _ _ => rfl⟩
    | mismatch hsize hown hfull hcount h =>
      rw [hcount] at hsum
      exact absurd (UInt32.toNat_lt _) (Nat.not_lt.2 hsum)
    | exact hsize hown hfull hcount =>
      rw [hcount] at hsum
      exact absurd (UInt32.toNat_lt _) (Nat.not_lt.2 hsum)
  · have hsize : 1 < o.numItems ↔ 2 ≤ o.numItems := by
      rw [UInt32.lt_iff_toNat_lt, UInt32.le_iff_toNat_le]
      exact Iff.rfl
    rw [ResolvedOrder.isEligibleRoot_iff, hsize]
    simp only [← and_assoc, forall_and]

def bidForEach (numItems : UInt32) (tokens : List String) (numTokens : UInt32) : ResolvedOrder :=
  let o : Order := { id := "bid", side := .buy, numItems := numItems, price := ⟨.one, .one, 0, 1⟩ }
  ⟨o, tokens.map fun token => { (o.item ("bid-" ++ token) "c").withToken token with numTokens }⟩

/-- A bid for two of each of two tokens counts up to four. Three counts of 2^31, which would wrap around
to the 2^31 that are asked for, do not count up to it. -/
theorem validate_counts_bidForEach :
    (bidForEach 4 ["1", "2"] 2).order.validate (bidForEach 4 ["1", "2"] 2).items = .ok () ∧
    (bidForEach 4 ["1", "2"] 2).isEligibleRoot = true ∧
    let r := bidForEach 0x80000000 ["1", "2", "3"] 0x80000000
    r.order.validate r.items =
      .error (.invalidOrder "bid" OrderFault.contributionOverflow.reason) := by
  refine ⟨?_, ?_, ?_⟩
  · obtain ⟨hvalid, -, -⟩ :=
      validate_counts_exactly (bidForEach 4 ["1", "2"] 2).order (bidForEach 4 ["1", "2"] 2).items
    exact hvalid.2 ⟨by decide, by decide, fun _ _ => by decide⟩
  · obtain ⟨-, -, heligible⟩ :=
      validate_counts_exactly (bidForEach 4 ["1", "2"] 2).order (bidForEach 4 ["1", "2"] 2).items
    exact heligible.2 ⟨by decide, by decide, by decide, by decide, by decide⟩
  · intro r
    obtain ⟨-, hover, -⟩ := validate_counts_exactly r.order r.items
    obtain ⟨f, hf, hcause⟩ :=
      hover (r.items.take 2) (r.items.drop 2) (by decide) (by decide) (by decide)
    rw [hf, hcause (by decide) (by decide)]
    rfl

end Order

end OrderBook

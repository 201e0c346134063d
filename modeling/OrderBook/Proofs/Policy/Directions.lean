import OrderBook.Proofs.Query.Narrowing

/-!
The two directions of a check. Most policies look at two items in the same way, so it does not matter
which of them is the candidate. The status and the traits are asked of the candidate alone, and that is
all that the second direction of a mutual match adds to the first.
-/

namespace OrderBook

variable {a b : OrderItem}

namespace OrderItem

theorem intersection_of_side_eq (h : a.side = b.side) :
    a.intersection b = .error (.sameSide a.orderId b.orderId) := by
  rw [intersection, h]
  cases b.side <;> rfl

theorem intersection_comm (h : a.side ≠ b.side) : a.intersection b = b.intersection a := by
  rw [intersection, intersection]
  cases ha : a.side <;> cases hb : b.side
  · exact absurd (ha.trans hb.symm) h
  · rfl
  · rfl
  · exact absurd (ha.trans hb.symm) h

end OrderItem

namespace Policy

variable {p : Policy}

/-- Whether a policy lets `candidate` through as a partner of `item`, whatever its reasons. -/
def verdict (p : Policy) (item candidate : OrderItem) : Result Bool := do
  return (← p.check item candidate).isNone

/-- The policies that ask something of the candidate alone. -/
def directional : List Policy := [.status, .traits]

theorem mem_directional : p ∈ directional ↔ p = .status ∨ p = .traits := by
  simp [directional]

theorem verdict_of_check {m : Option Mismatch} (h : p.check a b = .ok m) :
    p.verdict a b = .ok m.isNone := by
  rw [verdict, h]
  rfl

theorem verdict_eq_true : p.verdict a b = .ok true ↔ p.check a b = .ok none := by
  constructor
  · intro h
    obtain ⟨m, hm, hnone⟩ := bind_eq_ok.1 h
    rw [hm, Option.isNone_iff_eq_none.1 (pure_eq_ok.1 hnone)]
  · exact verdict_of_check

theorem isNone_require (condition : Bool) (m : Mismatch) :
    (require condition m).isNone = condition := by
  cases condition <;> rfl

theorem verdict_of_require {condition : Bool} {m : Mismatch}
    (h : p.check a b = .ok (require condition m)) : p.verdict a b = .ok condition := by
  rw [verdict_of_check h, isNone_require]

theorem verdict_comm_of_require {c d : Bool} {m n : Mismatch} (hc : p.check a b = .ok (require c m))
    (hd : p.check b a = .ok (require d n)) (h : c = d) : p.verdict a b = p.verdict b a := by
  rw [verdict_of_require hc, verdict_of_require hd, h]

theorem verdict_price_of_error {e : MatchError} (h : a.intersection b = .error e)
    (he : e.isFatal = false) : price.verdict a b = .ok false := by
  have hcheck : price.check a b = .ok (some (.priceFailed e)) := by
    rw [check, priceMismatch?, h]
    simp [he]
  exact verdict_of_check hcheck

theorem verdict_price_comm (a b : OrderItem) : price.verdict a b = price.verdict b a := by
  by_cases h : a.side = b.side
  · rw [verdict_price_of_error (OrderItem.intersection_of_side_eq h) rfl,
      verdict_price_of_error (OrderItem.intersection_of_side_eq h.symm) rfl]
  · rw [verdict, verdict, check, check, priceMismatch?, priceMismatch?, OrderItem.intersection_comm h]

theorem isNone_tokenMismatch?_comm (a b : OrderItem) :
    (tokenMismatch? a b).isNone = (tokenMismatch? b a).isNone := by
  rw [tokenMismatch?, tokenMismatch?]
  cases ha : a.tokenId with
  | none => cases hb : b.tokenId <;> rfl
  | some s =>
    cases hb : b.tokenId with
    | none => rfl
    | some t => by_cases h : s = t <;> simp [h, eq_comm]

theorem verdict_comm (h : p ∉ directional) (a b : OrderItem) : p.verdict a b = p.verdict b a := by
  cases p with
  | chain => exact verdict_comm_of_require rfl rfl BEq.comm
  | side =>
    have hside : (b.side == a.side.opposite) = (a.side == b.side.opposite) := by
      cases a.side <;> cases b.side <;> rfl
    exact verdict_comm_of_require rfl rfl hside
  | status => exact absurd List.mem_cons_self h
  | collection => exact verdict_comm_of_require rfl rfl (sameAddress_comm _ _)
  | token => rw [verdict_of_check rfl, verdict_of_check rfl, isNone_tokenMismatch?_comm]
  | traits => exact absurd (List.mem_cons_of_mem _ List.mem_cons_self) h
  | complication => exact verdict_comm_of_require rfl rfl BEq.comm
  | currency => exact verdict_comm_of_require rfl rfl BEq.comm
  | timeWindow => exact verdict_comm_of_require rfl rfl (Bool.and_comm _ _)
  | price => exact verdict_price_comm a b

theorem check_comm (h : p ∉ directional) : p.check a b = .ok none ↔ p.check b a = .ok none := by
  rw [← verdict_eq_true, ← verdict_eq_true, verdict_comm h]

theorem check_status_iff : status.check a b = .ok none ↔ b.status = .active := by
  rw [check, ok_require, beq_iff_eq]

theorem check_traits_iff : traits.check a b = .ok none ↔
    (b.pinsToken = true → ∀ f ∈ a.traitFilters, f.accepts b.tokenAttributes = true) := by
  rw [check, traitMismatch?]
  split
  · rename_i hpins
    simp [hpins]
  · rename_i hpins
    simp [hpins]

theorem check_ne_error {e : MatchError} (h : p ∈ directional) : p.check a b ≠ .error e := by
  intro hfail
  rcases mem_directional.1 h with rfl | rfl
  · cases hfail
  · cases hfail

end Policy

namespace PolicyChain

variable {chain : PolicyChain} {e : MatchError}

theorem mismatches_of_check (h : ∀ p ∈ chain, p.check a b = .ok none) :
    chain.mismatches a b = .ok [] := by
  induction chain with
  | nil => rfl
  | cons p ps ih =>
    rw [mismatches, h p List.mem_cons_self, ih fun q hq => h q (List.mem_cons_of_mem p hq)]
    rfl

theorem accepts_iff : chain.accepts a b = .ok true ↔ ∀ p ∈ chain, p.check a b = .ok none := by
  constructor
  · exact check_of_accepts
  · intro h
    rw [accepts, mismatches_of_check h]
    rfl

theorem exists_check_of_mismatches (h : chain.mismatches a b = .error e) :
    ∃ p ∈ chain, p.check a b = .error e := by
  induction chain with
  | nil => cases h
  | cons p ps ih =>
    rcases bind_eq_error.1 h with hfirst | ⟨m, -, h⟩
    · exact ⟨p, List.mem_cons_self, hfirst⟩
    · rcases bind_eq_error.1 h with hrest | ⟨ms, -, h⟩
      · obtain ⟨q, hq, hcheck⟩ := ih hrest
        exact ⟨q, List.mem_cons_of_mem p hq, hcheck⟩
      · cases h

theorem exists_check_of_accepts (h : chain.accepts a b = .error e) :
    ∃ p ∈ chain, p.check a b = .error e := by
  rcases bind_eq_error.1 h with hmismatches | ⟨ms, -, h⟩
  · exact exists_check_of_mismatches hmismatches
  · cases h

theorem mutualMatch_iff_accepts : chain.mutualMatch a b = .ok true ↔
    chain.accepts a b = .ok true ∧ chain.accepts b a = .ok true := by
  constructor
  · intro h
    obtain ⟨yes, hyes, h⟩ := bind_eq_ok.1 h
    cases yes with
    | true => exact ⟨hyes, h⟩
    | false => cases h
  · rintro ⟨hfirst, hsecond⟩
    exact bind_eq_ok.2 ⟨true, hfirst, hsecond⟩

/-- The second direction of a mutual match adds the directional policies of the chain to the first. -/
theorem mutualMatch_iff : chain.mutualMatch a b = .ok true ↔ chain.accepts a b = .ok true ∧
    ∀ p ∈ chain, p ∈ Policy.directional → p.check b a = .ok none := by
  rw [mutualMatch_iff_accepts]
  refine and_congr_right fun hfirst => ?_
  rw [accepts_iff]
  constructor
  · exact fun h p hp _ => h p hp
  · intro h p hp
    by_cases hdirectional : p ∈ Policy.directional
    · exact h p hp hdirectional
    · exact (Policy.check_comm hdirectional).1 (accepts_iff.1 hfirst p hp)

theorem mutualMatch_eq_error : chain.mutualMatch a b = .error e ↔ chain.accepts a b = .error e := by
  constructor
  · intro h
    rcases bind_eq_error.1 h with hfirst | ⟨yes, hyes, h⟩
    · exact hfirst
    · cases yes with
      | false => cases h
      | true =>
        obtain ⟨p, hp, hfail⟩ := exists_check_of_accepts h
        have hno : p ∉ Policy.directional := fun hd => Policy.check_ne_error hd hfail
        have hnone := (Policy.check_comm hno).1 (accepts_iff.1 hyes p hp)
        cases hnone.symm.trans hfail
  · exact fun h => bind_eq_error.2 (.inl h)

end PolicyChain

def redToken : OrderItem where
  id := "s-0"
  orderId := "s"
  chainId := 1
  side := .sell
  numItems := 1
  price := ⟨.ofUInt32 1, .ofUInt32 1, 0, 100⟩
  collection := "c"
  tokenId := some "1"
  tokenAttributes := Keyed.empty.insert ("hat", "red")

def anyToken (hat : String) : OrderItem where
  id := "b-0"
  orderId := "b"
  chainId := 1
  side := .buy
  numItems := 1
  price := ⟨.ofUInt32 2, .ofUInt32 2, 0, 100⟩
  collection := "c"
  traitFilters := [⟨"hat", [hat]⟩]

theorem Policy.verdict_comm_iff {p : Policy} :
    (∀ a b, p.verdict a b = p.verdict b a) ↔ p ∉ Policy.directional := by
  constructor
  · intro h hdirectional
    rcases Policy.mem_directional.1 hdirectional with rfl | rfl
    · have hstatus : (.ok false : Result Bool) = .ok true :=
        h redToken { redToken with status := .filled }
      cases hstatus
    · have htraits : (.ok true : Result Bool) = .ok false := h redToken (anyToken "blue")
      cases htraits
  · exact Policy.verdict_comm

/-- The second direction of a match under all policies only asks that the first item is active and,
where it pins a token, that the token passes the filters of the second. The status and the traits are
the only policies whose verdict depends on the direction: prices that cannot be compared count against
the candidate both ways. -/
theorem only_status_and_traits_directional :
    (∀ a b : OrderItem, PolicyChain.default.mutualMatch a b = .ok true ↔
      PolicyChain.default.accepts a b = .ok true ∧ a.status = .active ∧
        (a.pinsToken = true → ∀ f ∈ b.traitFilters, f.accepts a.tokenAttributes = true)) ∧
    (∀ (a b : OrderItem) (e : MatchError), PolicyChain.default.mutualMatch a b = .error e ↔
      PolicyChain.default.accepts a b = .error e) ∧
    (∀ p : Policy, (∀ a b, p.verdict a b = p.verdict b a) ↔ p ≠ .status ∧ p ≠ .traits) ∧
    (∀ (a b : OrderItem) (e : MatchError), a.intersection b = .error e → e.isFatal = false →
      Policy.price.verdict a b = .ok false ∧ Policy.price.verdict b a = .ok false) := by
  refine ⟨fun a b => ?_, fun a b e => PolicyChain.mutualMatch_eq_error, fun p => ?_, ?_⟩
  · rw [PolicyChain.mutualMatch_iff, ← Policy.check_status_iff (a := b),
      ← Policy.check_traits_iff]
    simp [PolicyChain.default, Policy.all, Policy.directional]
  · rw [Policy.verdict_comm_iff, Policy.mem_directional, not_or]
  · intro a b e h he
    have hfirst := Policy.verdict_price_of_error h he
    exact ⟨hfirst, (Policy.verdict_price_comm a b).symm.trans hfirst⟩

/-- The red token matches a buyer of red ones. Its seller accepts a buyer of blue ones as well, but is
not accepted there, and no order for no tokens at all has a price for it. -/
theorem directions_redToken :
    let forNone : OrderItem := { anyToken "red" with numItems := 0 }
    PolicyChain.default.mutualMatch redToken (anyToken "red") = .ok true ∧
      PolicyChain.default.accepts redToken (anyToken "blue") = .ok true ∧
      PolicyChain.default.mutualMatch redToken (anyToken "blue") ≠ .ok true ∧
      redToken.intersection forNone = .error (.arithmetic .perItemOfZero) ∧
      Policy.price.verdict redToken forNone = .ok false ∧
      Policy.price.verdict forNone redToken = .ok false := by
  intro forNone
  obtain ⟨hmatch, -, -, hprice⟩ := only_status_and_traits_directional
  have herror : redToken.intersection forNone = .error (.arithmetic .perItemOfZero) := rfl
  refine ⟨(hmatch redToken (anyToken "red")).2 ⟨rfl, rfl, ?_⟩, rfl, fun hblue => ?_, herror,
    hprice _ _ _ herror rfl⟩
  · decide
  · obtain ⟨-, -, htraits⟩ := (hmatch redToken (anyToken "blue")).1 hblue
    exact absurd htraits (by decide)

end OrderBook

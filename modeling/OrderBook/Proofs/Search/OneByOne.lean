import Mathlib.Data.List.Basic
import OrderBook.Proofs.Failures
import OrderBook.Proofs.Price.Interval

/-!
One-to-one search, candidate by candidate. What a candidate gives does not depend on the others, and a
candidate whose prices leave the range of numbers gives nothing. Only spreads too far apart end the
search, and they take the records of all candidates with them.
-/

namespace OrderBook

theorem forgive_eq_error {α : Type} {x : Result (Option α)} {e : MatchError}
    (h : x.forgive = .error e) : x = .error e := by
  cases x with
  | ok a => cases h
  | error e' =>
    simp only [Result.forgive] at h
    split at h
    · exact h
    · cases h

namespace PriceCurve

variable {bid ask : PriceCurve}

theorem apart_of_intersect (h : intersect bid ask = .error .spreadsTooFarApart) :
    SpreadsApart bid ask := by
  have hkind : FailsOnly (MatchError.IfFatal fun _ => SpreadsApart bid ask) (intersect bid ask) :=
    failsOnly_intersect fun hapart _ => hapart
  exact hkind _ h rfl

theorem isCurve_of_intersect {e : MatchError} (h : intersect bid ask = .error e) : e.IsCurve :=
  failsOnly_intersect (fun _ => .inl rfl) e h

end PriceCurve

namespace OneToOne

variable {chain : PolicyChain} {root candidate : ResolvedOrder} {now : UInt64}
  {candidates : List ResolvedOrder}

theorem matchCandidate_eq_some {m : OneToOneMatch}
    (h : matchCandidate chain root candidate now = .ok (some m)) :
    candidate.id ≠ root.id ∧ ∃ x p clearing,
      root.order.intersection candidate.order = .ok (some x) ∧
      pairing? chain root candidate = .ok (some p) ∧ x.resolve now = .ok (some clearing) ∧
      m = .make root.order candidate.order (itemPairs root candidate p) clearing.price
        clearing.timestamp := by
  rw [matchCandidate] at h
  split at h
  · cases h
  · rename_i hid
    obtain ⟨found, hx, h⟩ := bind_eq_ok.1 h
    cases found with
    | none => cases h
    | some x =>
      obtain ⟨found, hp, h⟩ := bind_eq_ok.1 h
      cases found with
      | none => cases h
      | some p =>
        obtain ⟨found, hclearing, h⟩ := bind_eq_ok.1 h
        cases found with
        | none => cases h
        | some clearing =>
          cases h
          exact ⟨hid, x, p, clearing, hx, hp, hclearing, rfl⟩

/-- The record with one candidate, errors apart. -/
def recordWith (chain : PolicyChain) (root : ResolvedOrder) (now : UInt64) (candidate : ResolvedOrder) :
    Option OneToOneMatch :=
  match (matchCandidate chain root candidate now).forgive with
  | .ok found => found
  | .error _ => none

/-- What is found where a candidate is the only one. -/
def alone (chain : PolicyChain) (root : ResolvedOrder) (now : UInt64) (candidate : ResolvedOrder) :
    List OneToOneMatch :=
  match search chain root now [candidate] with
  | .ok found => found
  | .error _ => []

theorem forgive_matchCandidate
    (h : matchCandidate chain root candidate now ≠ .error .spreadsTooFarApart) :
    (matchCandidate chain root candidate now).forgive =
      .ok (recordWith chain root now candidate) := by
  have hkind : FailsOnly (MatchError.IfFatal MatchError.IsApart)
      (matchCandidate chain root candidate now) :=
    failsOnly_matchCandidate (fun _ _ _ _ _ => MatchError.isApart_self)
      (fun _ => MatchError.isApart_self) chain now
  rw [recordWith]
  cases hx : (matchCandidate chain root candidate now).forgive with
  | ok found => rfl
  | error e =>
    obtain rfl : e = .spreadsTooFarApart := failsOnly_forgive hkind e hx
    exact absurd (forgive_eq_error hx) h

theorem search_eq_ok_iff {ms : List OneToOneMatch} :
    search chain root now candidates = .ok ms ↔
      (∀ c ∈ candidates, matchCandidate chain root c now ≠ .error .spreadsTooFarApart) ∧
        ms = candidates.filterMap (recordWith chain root now) := by
  induction candidates generalizing ms with
  | nil => simp [search, eq_comm]
  | cons c candidates ih =>
    rw [search, bind_eq_ok, List.forall_mem_cons]
    constructor
    · rintro ⟨first, hfirst, h⟩
      obtain ⟨rest, hrest, h⟩ := bind_eq_ok.1 h
      obtain rfl := pure_eq_ok.1 h
      obtain ⟨hothers, rfl⟩ := ih.1 hrest
      refine ⟨⟨fun hapart => ?_, hothers⟩, ?_⟩
      · rw [hapart] at hfirst
        cases hfirst
      · have hrecord : recordWith chain root now c = first := by rw [recordWith, hfirst]
        rw [List.filterMap_cons, hrecord]
        cases first with
        | none => rfl
        | some m => rfl
    · rintro ⟨⟨hc, hothers⟩, rfl⟩
      refine ⟨_, forgive_matchCandidate hc, bind_eq_ok.2 ⟨_, ih.2 ⟨hothers, rfl⟩, ?_⟩⟩
      rw [pure_eq_ok, List.filterMap_cons]
      cases recordWith chain root now c with
      | none => rfl
      | some m => rfl

theorem mem_search {ms : List OneToOneMatch} {m : OneToOneMatch}
    (h : search chain root now candidates = .ok ms) :
    m ∈ ms ↔ ∃ c ∈ candidates, matchCandidate chain root c now = .ok (some m) := by
  obtain ⟨-, rfl⟩ := search_eq_ok_iff.1 h
  rw [List.mem_filterMap]
  refine exists_congr fun c => and_congr_right fun _ => ?_
  rw [recordWith]
  constructor
  · intro hm
    split at hm
    · rename_i found hfound
      exact forgive_eq_some (hm ▸ hfound)
    · cases hm
  · intro hm
    rw [hm]
    rfl

theorem alone_eq : alone chain root now candidate = (recordWith chain root now candidate).toList := by
  have hsearch : search chain root now [candidate] =
      (matchCandidate chain root candidate now).forgive >>= fun first => .ok first.toList := by
    simp [search, bind, Except.bind, pure, Except.pure]
  rw [alone, recordWith, hsearch]
  cases (matchCandidate chain root candidate now).forgive with
  | ok found => rfl
  | error e => rfl

theorem apart_of_matchCandidate
    (h : matchCandidate chain root candidate now = .error .spreadsTooFarApart) :
    root.order.Apart candidate.order ∨ ∃ a ∈ root.items, ∃ b ∈ candidate.items, a.Apart b := by
  have hkind : FailsOnly (MatchError.IfFatal fun _ => root.order.Apart candidate.order ∨
      ∃ a ∈ root.items, ∃ b ∈ candidate.items, a.Apart b)
      (matchCandidate chain root candidate now) :=
    failsOnly_matchCandidate (fun a ha b hb hapart => .inr ⟨a, ha, b, hb, hapart⟩) .inl chain now
  exact hkind _ h rfl

theorem search_eq_apart (hc : candidate ∈ candidates)
    (h : matchCandidate chain root candidate now = .error .spreadsTooFarApart) :
    search chain root now candidates = .error .spreadsTooFarApart := by
  cases hsearch : search chain root now candidates with
  | ok ms => exact absurd h ((search_eq_ok_iff.1 hsearch).1 candidate hc)
  | error e =>
    obtain rfl : e = .spreadsTooFarApart := failsOnly_search chain root now candidates e hsearch
    rfl

/-- One-to-one search gives what the candidates give one by one, in their order, where none of them
has prices too far apart, and ends with this error where one has. A candidate fails in this way only
if two curves that are compared for it cannot be intersected, and an arithmetic error costs no more
than its own record. Two curves fail in no other way, and the correction by a millisecond does not run
past the last instant. -/
theorem search_eq_each_alone (chain : PolicyChain) (root : ResolvedOrder) (now : UInt64) :
    (∀ candidates, (∀ c ∈ candidates, matchCandidate chain root c now ≠ .error .spreadsTooFarApart) →
      search chain root now candidates = .ok (candidates.flatMap (alone chain root now))) ∧
    (∀ candidates, ∀ c ∈ candidates, matchCandidate chain root c now = .error .spreadsTooFarApart →
      search chain root now candidates = .error .spreadsTooFarApart ∧
      (root.order.Apart c.order ∨ ∃ a ∈ root.items, ∃ b ∈ c.items, a.Apart b)) ∧
    (∀ c step, matchCandidate chain root c now = .error (.arithmetic step) →
      search chain root now [c] = .ok [] ∧ alone chain root now c = []) ∧
    ∀ bid ask : PriceCurve,
      (PriceCurve.intersect bid ask = .error .spreadsTooFarApart ↔
        PriceCurve.SpreadsApart bid ask) ∧
      (∀ e, PriceCurve.intersect bid ask = .error e →
        e = .spreadsTooFarApart ∨ ∃ step, e = .arithmetic step) ∧
      ∀ n, PriceCurve.Corrects bid ask n → n < min bid.endTime ask.endTime := by
  have hrecords : alone chain root now = fun c => (recordWith chain root now c).toList :=
    funext fun _ => alone_eq
  refine ⟨fun candidates h => ?_, fun candidates c hc h => ?_, fun c step h => ?_, fun bid ask => ?_⟩
  · rw [hrecords, ← List.filterMap_eq_flatMap_toList]
    exact search_eq_ok_iff.2 ⟨h, rfl⟩
  · exact ⟨search_eq_apart hc h, apart_of_matchCandidate h⟩
  · have hnone : recordWith chain root now c = none := by
      rw [recordWith, h]
      rfl
    have hnotApart : matchCandidate chain root c now ≠ .error .spreadsTooFarApart := by
      rw [h]
      exact fun heq => by cases heq
    refine ⟨search_eq_ok_iff.2 ⟨List.forall_mem_singleton.2 hnotApart, ?_⟩, ?_⟩
    · simp [hnone]
    · rw [alone_eq, hnone]
      rfl
  · exact ⟨⟨PriceCurve.apart_of_intersect, PriceCurve.intersect_eq_apart⟩,
      fun _ => PriceCurve.isCurve_of_intersect, fun _ => PriceCurve.Corrects.lt⟩

def flatAsk : ResolvedOrder := askFor "b" "1" (.ramp (.ofUInt32 4) (.ofUInt32 4))

/-- An ask for less than nothing, so that its distance from the bid is no number. -/
def negativeAsk : ResolvedOrder := askFor "a" "1" (.ramp Decimal.greatest.neg .zero)

/-- The ask whose price is that of the bid the other way round. -/
def oppositeAsk : ResolvedOrder := askFor "a" "1" (.ramp .zero .greatest)

theorem search_eq_each_alone_steepBid :
    matchCandidate .default (steepBid ["1"]) negativeAsk 0 = .error (.arithmetic .spread) ∧
    (∃ record, alone .default (steepBid ["1"]) 0 flatAsk = [record]) ∧
    search .default (steepBid ["1"]) 0 [negativeAsk, flatAsk] =
      .ok (alone .default (steepBid ["1"]) 0 flatAsk) := by
  have hnegative : matchCandidate .default (steepBid ["1"]) negativeAsk 0 =
      .error (.arithmetic .spread) := rfl
  obtain ⟨heach, -, hnothing, -⟩ := search_eq_each_alone .default (steepBid ["1"]) 0
  refine ⟨hnegative, ⟨_, rfl⟩, ?_⟩
  have hboth : ∀ c ∈ [negativeAsk, flatAsk],
      matchCandidate .default (steepBid ["1"]) c 0 ≠ .error .spreadsTooFarApart := by
    intro c hc h
    rcases List.mem_pair.1 hc with rfl | rfl
    · rw [hnegative] at h
      cases h
    · cases h
  rw [heach [negativeAsk, flatAsk] hboth, List.flatMap_cons, (hnothing _ _ hnegative).2]
  rfl

/-- One candidate takes down the search, with the record of the one after it. -/
theorem search_ended_by_oppositeAsk :
    PriceCurve.intersect (.ramp .greatest .zero) (.ramp .zero .greatest) =
      .error .spreadsTooFarApart ∧
    search .default (steepBid ["1"]) 0 [oppositeAsk, flatAsk] = .error .spreadsTooFarApart ∧
    ∃ record, alone .default (steepBid ["1"]) 0 flatAsk = [record] :=
  ⟨PriceCurve.intersect_eq_apart PriceCurve.spreadsApart_ramp, rfl, _, rfl⟩

end OneToOne

end OrderBook

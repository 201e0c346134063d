import OrderBook.Proofs.Search.Pool
import OrderBook.Proofs.Search.SilentCandidates

/-!
An order that is no match for the root does not influence what a one-to-many search gives, wherever it
comes among the candidates: it gets a pass of its own, it may be the candidate that goes when a price
fails, and it moves the positions of all others. Only a comparison that cannot be made shows, since it
ends the search.
-/

namespace OrderBook

theorem PolicyChain.apart_of_mutualMatch {chain : PolicyChain} {a b : OrderItem}
    (h : chain.mutualMatch a b = .error .spreadsTooFarApart) : a.Apart b := by
  have hkind : FailsOnly (fun _ => a.Apart b) (chain.mutualMatch a b) :=
    chain.failsOnly_mutualMatch id
  exact hkind _ h

theorem decided_iff {chain : PolicyChain} {root r : ResolvedOrder} :
    Decided chain root r ↔ ∀ a ∈ root.items, ∀ b ∈ r.items,
      chain.mutualMatch a b ≠ .error .spreadsTooFarApart := by
  constructor
  · intro h a ha b hb hapart
    obtain ⟨yes, hyes⟩ := h a ha b hb
    cases hyes.symm.trans hapart
  · intro h a ha b hb
    have hkind : FailsOnly MatchError.IsApart (chain.mutualMatch a b) :=
      chain.failsOnly_mutualMatch fun _ => MatchError.isApart_self
    refine hkind.exists_ok fun e he hfail => ?_
    rw [he] at hfail
    exact h a ha b hb hfail

namespace OneToMany

variable {chain : PolicyChain} {root x : ResolvedOrder} {now : UInt64}
  {before after candidates : List ResolvedOrder}

theorem results_start_filter (keep : ResolvedOrder → Bool)
    (hsilent : ∀ r ∈ poolOf root candidates, keep r = false → Silent chain root r)
    (hdecided : ∀ r ∈ poolOf root candidates, keep r = false → Decided chain root r) :
    (start chain root candidates now).results =
      (start chain root (candidates.filter keep) now).results := by
  have hpool : ∀ r ∈ poolOf root candidates, r.order.numItems = 1 := fun r hr =>
    (isPoolCandidate_iff.1 (mem_poolOf.1 hr).2).1
  show (between chain root now (poolOf root candidates) []).results =
    (between chain root now (poolOf root (candidates.filter keep)) []).results
  rw [results_filter keep hsilent hdecided hpool, filter_poolOf]

/-- An order none of whose items is a match for an item of the root may be inserted anywhere among the
candidates: the search gives what it gives without it, unless the order gets into the pool and one of
the comparisons with it cannot be made. Then the search ends with that error at once. -/
theorem results_insert_incompatible (chain : PolicyChain) (root : ResolvedOrder) (now : UInt64)
    (before after : List ResolvedOrder) (x : ResolvedOrder)
    (hx : ∀ a ∈ root.items, ∀ b ∈ x.items, chain.mutualMatch a b ≠ .ok true) :
    ((isPoolCandidate root x = true → ∀ a ∈ root.items, ∀ b ∈ x.items,
        chain.mutualMatch a b ≠ .error .spreadsTooFarApart) →
      (start chain root (before ++ x :: after) now).results =
        (start chain root (before ++ after) now).results) ∧
    (isPoolCandidate root x = true →
      (∃ a ∈ root.items, ∃ b ∈ x.items, chain.mutualMatch a b = .error .spreadsTooFarApart) →
      (start chain root (before ++ x :: after) now).results = [.error .spreadsTooFarApart]) ∧
    ∀ a b, chain.mutualMatch a b = .error .spreadsTooFarApart → a.Apart b := by
  have hsilent : Silent chain root x := by
    intro a ha b hb
    rw [← Bool.not_eq_true, PolicyChain.agrees_iff]
    exact hx a ha b hb
  refine ⟨fun hdecided => ?_, fun hpool hapart => ?_, fun _ _ => PolicyChain.apart_of_mutualMatch⟩
  · -- Other orders may be equal to this one, so it is left out on both sides.
    let keep : ResolvedOrder → Bool := fun r => decide (r ≠ x)
    have hleft : ∀ {r}, keep r = false → r = x := fun h => by simpa [keep] using h
    have hsame : ∀ candidates : List ResolvedOrder, (start chain root candidates now).results =
        (start chain root (candidates.filter keep) now).results := by
      intro candidates
      refine results_start_filter keep (fun r _ hr => hleft hr ▸ hsilent) fun r hr hk => ?_
      obtain rfl := hleft hk
      exact decided_iff.2 (hdecided (mem_poolOf.1 hr).2)
    have hinserted : (before ++ x :: after).filter keep = (before ++ after).filter keep := by
      simp [keep]
    rw [hsame (before ++ x :: after), hinserted, ← hsame]
  · refine results_of_unbuilt fun hbuilt => ?_
    obtain ⟨a, ha, b, hb, hapart⟩ := hapart
    have hmem : x ∈ poolOf root (before ++ x :: after) := mem_poolOf.2 ⟨by simp, hpool⟩
    exact decided_iff.1 (FlowPass.build_isOk.1 hbuilt x hmem) a ha b hb hapart

def flatAsks : List ResolvedOrder :=
  let flat : PriceCurve := .ramp (.ofUInt32 4) (.ofUInt32 4)
  [askFor "a" "1" flat, askFor "b" "2" flat]

def strayAsk (price : PriceCurve) : ResolvedOrder := askFor "x" "3" price "d"

theorem foundOne_flatAsks :
    ∃ record, (start .default (steepBid ["1", "2"]) flatAsks 0).results = [.ok record] := by
  have hpool : poolOf (steepBid ["1", "2"]) flatAsks = flatAsks :=
    poolOf_eq_self (by decide +kernel) (by decide +kernel)
  obtain ⟨record, hfound⟩ : ∃ record, (foundIn 12
      { chain := .default, root := steepBid ["1", "2"], now := 0, pool := flatAsks }).map (·.1) =
        [.ok record] := ⟨_, rfl⟩
  rw [results, drain_start_eq (n := 12) hpool rfl]
  exact ⟨record, hfound⟩

theorem results_insert_strayAsk :
    let stray := strayAsk (.ramp (.ofUInt32 4) (.ofUInt32 4))
    (∀ a ∈ (steepBid ["1", "2"]).items, ∀ b ∈ stray.items,
      PolicyChain.default.mutualMatch a b ≠ .ok true) ∧
    ∃ record, (start .default (steepBid ["1", "2"]) flatAsks 0).results = [.ok record] ∧
      (start .default (steepBid ["1", "2"]) (stray :: flatAsks) 0).results = [.ok record] := by
  intro stray
  have hno : ∀ a ∈ (steepBid ["1", "2"]).items, ∀ b ∈ stray.items,
      PolicyChain.default.mutualMatch a b = .ok false := by
    intro a ha b hb
    obtain rfl := List.mem_singleton.1 hb
    rcases List.mem_pair.1 ha with rfl | rfl
    · rfl
    · rfl
  have hx : ∀ a ∈ (steepBid ["1", "2"]).items, ∀ b ∈ stray.items,
      PolicyChain.default.mutualMatch a b ≠ .ok true := fun a ha b hb => by
    rw [hno a ha b hb]
    simp
  obtain ⟨record, hrecord⟩ := foundOne_flatAsks
  obtain ⟨hsame, -, -⟩ :=
    results_insert_incompatible .default (steepBid ["1", "2"]) 0 [] flatAsks stray hx
  refine ⟨hx, record, hrecord, (hsame fun _ a ha b hb => ?_).trans hrecord⟩
  rw [hno a ha b hb]
  simp

/-- An ask for the other collection ends the search, if its price lies too far apart. -/
theorem results_ended_by_strayAsk :
    let stray := strayAsk (.ramp .zero .greatest)
    (∀ a ∈ (steepBid ["1", "2"]).items, ∀ b ∈ stray.items,
      PolicyChain.default.mutualMatch a b ≠ .ok true) ∧
    (∃ record, (start .default (steepBid ["1", "2"]) flatAsks 0).results = [.ok record]) ∧
    (start .default (steepBid ["1", "2"]) (flatAsks ++ [stray]) 0).results =
      [.error .spreadsTooFarApart] := by
  intro stray
  have hapart : ∀ a ∈ (steepBid ["1", "2"]).items, ∀ b ∈ stray.items,
      PolicyChain.default.mutualMatch a b = .error .spreadsTooFarApart := by
    intro a ha b hb
    obtain rfl := List.mem_singleton.1 hb
    rcases List.mem_pair.1 ha with rfl | rfl
    · rfl
    · rfl
  refine ⟨fun a ha b hb => ?_, foundOne_flatAsks, ?_⟩
  · rw [hapart a ha b hb]
    simp
  · refine results_of_unbuilt fun hbuilt => ?_
    have hmem : stray ∈ poolOf (steepBid ["1", "2"]) (flatAsks ++ [stray]) :=
      mem_poolOf.2 ⟨by simp, by decide +kernel⟩
    have hdecided := FlowPass.build_isOk.1 hbuilt stray hmem
    obtain ⟨yes, hyes⟩ := hdecided _ List.mem_cons_self _ List.mem_cons_self
    cases (hapart _ List.mem_cons_self _ List.mem_cons_self).symm.trans hyes

end OneToMany

end OrderBook

import OrderBook.Proofs.Search.Lanes
import OrderBook.Proofs.Search.Runs
import OrderBook.Search.Engine

/-!
A search does not fail by itself. Flow never exceeds what a candidate asks for, so the check for it
never fires, and a candidate of one token that is engaged at all has its token. What is left are
failures of the store and an order that is not there.
-/

namespace OrderBook

-- The zero of sums is the literal.
attribute [local instance (high)] Zero.ofOfNat0

namespace FlowPass

variable {chain : PolicyChain} {root : ResolvedOrder} {pool : List ResolvedOrder} {p : FlowPass}

theorem Sound.incomingFlow_le (s : Sound chain root pool p) {c : OrderNodes}
    (hc : c ∈ p.candidates) : c.incomingFlow p.graph ≤ c.numItems := by
  obtain ⟨i, hi⟩ := List.mem_iff_getElem?.1 hc
  have hle := s.received_le i
  simpa only [received, expected, candidate?, hi, Option.map_some, Option.getD_some] using hle

theorem Sound.not_underfilled (s : Sound chain root pool p)
    (hpool : ∀ r ∈ pool, r.order.numItems = 1) (i : Nat) :
    p.judge p.engaged ≠ .ok (.underfilled i) := by
  intro h
  rw [s.judge_eq hpool] at h
  split at h
  · cases h
  · cases h

end FlowPass

namespace OneToMany

theorem failsOnly_drain (chain : PolicyChain) (root : ResolvedOrder)
    (candidates : List ResolvedOrder) (now : UInt64) {x : Result OneToManyMatch × Nat}
    (hx : x ∈ (start chain root candidates now).drain.1) : FailsOnly MatchError.IsApart x.1 := by
  intro e he
  obtain ⟨t, u, hreach, hgive, -⟩ := reaches_drain hx
  rw [he] at hgive
  exact ((runs_start chain root candidates now).reaches hreach).give_error hgive

theorem failsOnly_records (chain : PolicyChain) (root : ResolvedOrder)
    (candidates : List ResolvedOrder) (now : UInt64) :
    FailsOnly MatchError.IsApart (start chain root candidates now).records :=
  .mapM _ fun _ hx => failsOnly_drain chain root candidates now hx

end OneToMany

def MatchError.IsOfSearch (id : String) (e : MatchError) : Prop :=
  e = .orderNotFound id ∨ (∃ failure, e = .store failure) ∨ e = .spreadsTooFarApart

namespace Engine

theorem failsOnly_searchWithCandidates (chain : PolicyChain) (config : MatcherConfig)
    (root : ResolvedOrder) (candidates : List ResolvedOrder) (now : UInt64) :
    FailsOnly MatchError.IsApart (searchWithCandidates chain config root candidates now) := by
  refine .bind (OneToOne.failsOnly_search chain root now candidates) fun single _ => ?_
  dsimp only
  split
  · exact .bind (OneToMany.failsOnly_records chain root candidates now) fun _ _ => .pure _
  · exact .bind (.pure []) fun _ _ => .pure _

theorem failsOnly_consider (chain : PolicyChain) (root : String) (item : OrderItem)
    (found : List String) (candidate : OrderItem) :
    FailsOnly MatchError.IsApart (consider chain root item found candidate) := by
  rw [consider]
  split
  · exact .pure found
  · refine .bind (chain.failsOnly_accepts fun _ => MatchError.isApart_self) fun yes _ => ?_
    split
    · exact .pure _
    · exact .pure found

variable {id : String}

theorem isOfSearch_of_isApart {e : MatchError} (h : e.IsApart) : e.IsOfSearch id := .inr (.inr h)

theorem failsOnly_discover (e : Engine) (root : String) (found : List String)
    (items : List OrderItem) :
    FailsOnly (MatchError.IsOfSearch id) (e.discover root found items).1 := by
  induction items generalizing found with
  | nil => exact .ok found
  | cons item items ih =>
    rw [discover]
    dsimp only
    split
    · rename_i err herr
      refine .error (isOfSearch_of_isApart ?_)
      exact FailsOnly.foldlM (fun b a => failsOnly_consider e.chain root item b a) _ found err herr
    · split
      · exact .error (.inr (.inl ⟨_, rfl⟩))
      · exact ih _

theorem failsOnly_liftStore {α : Type} (x : Except StoreError α) :
    FailsOnly (MatchError.IsOfSearch id) (liftStore x) := by
  cases x with
  | error err => exact .error (.inr (.inl ⟨err, rfl⟩))
  | ok a => exact .ok a

theorem failsOnly_findCandidates (e : Engine) (root : ResolvedOrder) :
    FailsOnly (MatchError.IsOfSearch id) (e.findCandidates root).1 :=
  .bind (failsOnly_discover e root.id [] root.items) fun _ _ => failsOnly_liftStore _

theorem failsOnly_search (e : Engine) (now : UInt64) :
    FailsOnly (MatchError.IsOfSearch id) (e.search id now).1 := by
  rw [search]
  split
  · exact .error (.inr (.inl ⟨_, rfl⟩))
  · exact .error (.inl rfl)
  · refine .bind (failsOnly_findCandidates e _) fun candidates _ => ?_
    refine (failsOnly_searchWithCandidates e.chain e.config _ candidates now).imp ?_
    exact fun _ => isOfSearch_of_isApart

/-- No search fails by itself. The states of its passes are reachable ones, in which no candidate has
too much flow and no engaged candidate of one token too little. What remains, apart from spreads
without a difference, is an order that is not there or a failure of the store. -/
theorem search_fails_only_from_outside :
    (∀ (chain : PolicyChain) (root : ResolvedOrder) (candidates : List ResolvedOrder)
      (now : UInt64), ∀ x ∈ (OneToMany.start chain root candidates now).drain.1, ∀ e,
        x.1 = .error e → e = .spreadsTooFarApart) ∧
    (∀ (chain : PolicyChain) (config : MatcherConfig) (root : ResolvedOrder)
      (candidates : List ResolvedOrder) (now : UInt64) (e : MatchError),
        searchWithCandidates chain config root candidates now = .error e →
          e = .spreadsTooFarApart) ∧
    (∀ (chain : PolicyChain) (root : ResolvedOrder) (candidates : List ResolvedOrder)
      (now : UInt64) (s : OneToMany) (p : FlowPass),
        OneToMany.Reaches (.start chain root candidates now) s → s.pass = some p →
          ∃ pool, pool <:+ OneToMany.poolOf root candidates ∧
            FlowPass.Reachable chain root pool p) ∧
    (∀ (chain : PolicyChain) (root : ResolvedOrder) (pool : List ResolvedOrder) (p : FlowPass),
        FlowPass.Reachable chain root pool p →
          (∀ c ∈ p.candidates, c.incomingFlow p.graph ≤ c.numItems) ∧
          (∀ engaged e, p.judge engaged ≠ .error e) ∧
          ((∀ r ∈ pool, r.order.numItems = 1) → ∀ i, p.judge p.engaged ≠ .ok (.underfilled i))) ∧
    (∀ (engine : Engine) (id : String) (now : UInt64) (e : MatchError),
        (engine.search id now).1 = .error e → e.IsOfSearch id) := by
  refine ⟨?_, ?_, ?_, ?_, ?_⟩
  · intro chain root candidates now x hx e he
    exact OneToMany.failsOnly_drain chain root candidates now hx e he
  · exact fun chain config root candidates now =>
      failsOnly_searchWithCandidates chain config root candidates now
  · intro chain root candidates now s p hs hp
    exact ((OneToMany.runs_start chain root candidates now).reaches hs).reachable hp
  · intro chain root pool p hp
    have s := hp.sound
    refine ⟨fun c hc => s.incomingFlow_le hc, ?_, fun hpool => s.not_underfilled hpool⟩
    intro engaged e he
    obtain ⟨state, hstate⟩ := s.judge_ok engaged
    cases hstate.symm.trans he
  · exact fun engine id now => failsOnly_search engine now

end Engine

end OrderBook

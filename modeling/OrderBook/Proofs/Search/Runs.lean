import OrderBook.Proofs.Failures
import OrderBook.Proofs.Search.PassStates
import OrderBook.Search.OneToMany

/-!
Runs of the one-to-many search. Every state of a run keeps a part of the pool that it started with,
and its pass, if it has one, is a state of the pass over such a part. What a run gives is therefore
what a reachable pass gives in one round.
-/

namespace OrderBook

-- The zero of sums is the literal.
attribute [local instance (high)] Zero.ofOfNat0

namespace FlowPass

variable {chain : PolicyChain} {root : ResolvedOrder} {pool : List ResolvedOrder} {p q : FlowPass}
  {now : UInt64}

/-! What a step leads to -/

theorem settle_eq_more {engaged : List Nat} (h : p.settle engaged now = .ok (.more q)) :
    q = p.dropMain := by
  rw [settle] at h
  obtain ⟨clearing, -, h⟩ := bind_eq_ok.1 h
  cases clearing with
  | none => exact (by simpa [pure_eq_ok] using h : p.dropMain = q).symm
  | some c => simp [pure_eq_ok] at h

theorem settle_eq_found {engaged : List Nat} {record : OneToManyMatch}
    (h : p.settle engaged now = .ok (.found record q)) :
    q = p ∧ ∃ clearing, p.clearing? engaged now = .ok (some clearing) ∧
      record = .make p.root.order (p.opposingOrders engaged) p.itemEdges clearing.price
        clearing.timestamp := by
  rw [settle] at h
  obtain ⟨clearing, hc, h⟩ := bind_eq_ok.1 h
  cases clearing with
  | none => simp [pure_eq_ok] at h
  | some c =>
    obtain ⟨rfl, rfl⟩ : OneToManyMatch.make p.root.order (p.opposingOrders engaged) p.itemEdges
        c.price c.timestamp = record ∧ p = q := by simpa [pure_eq_ok] using h
    refine ⟨rfl, c, ?_, rfl⟩
    cases hx : p.clearing? engaged now with
    | ok x => simpa [hx, Result.forgive] using hc
    | error e => by_cases hf : e.isFatal = true <;> simp [hx, Result.forgive, hf] at hc

theorem judge_eq_filled {engaged others : List Nat} (h : p.judge engaged = .ok (.filled others)) :
    others = engaged ∧ (∀ i ∈ engaged, p.received i = p.expected i) ∧
      (engaged.map p.received).sum = p.rootNodes.numItems := by
  rw [judge] at h
  cases hover : engaged.find? fun i => p.expected i < p.received i with
  | some i => simp [hover] at h
  | none =>
    cases hunder : engaged.find? fun i => p.received i < p.expected i with
    | some i => simp [hover, hunder] at h
    | none =>
      simp only [hover, hunder] at h
      split at h
      · rename_i hsum
        refine ⟨by simpa using h.symm, fun i hi => ?_, hsum⟩
        have hle := List.find?_eq_none.1 hover i hi
        have hge := List.find?_eq_none.1 hunder i hi
        simp only [decide_eq_true_eq] at hle hge
        omega
      · simp at h

/-- The round after which a pass gives a record. -/
structure Gives (p : FlowPass) (now : UInt64) (record : OneToManyMatch) : Prop where
  received : ∀ i ∈ p.engaged, p.received i = p.expected i
  sum : (p.engaged.map p.received).sum = p.rootNodes.numItems
  made : ∃ clearing, p.clearing? p.engaged now = .ok (some clearing) ∧
    record = .make p.root.order (p.opposingOrders p.engaged) p.itemEdges clearing.price
      clearing.timestamp

/-- What a step does that goes through: without flow the pass ends, and else the round tells. -/
theorem step_cases {s : Step} (h : p.step now = .ok s) :
    (p.graph.pushFlow.2 = 0 ∧ s = .exhausted) ∨
    (∃ i, p.afterRound.judge p.afterRound.engaged = .ok (.underfilled i) ∧
      s = .more (p.afterRound.dropCandidate i)) ∨
    (p.afterRound.judge p.afterRound.engaged = .ok .part ∧ s = .more p.afterRound) ∨
    (∃ engaged, p.afterRound.judge p.afterRound.engaged = .ok (.filled engaged) ∧
      p.afterRound.settle engaged now = .ok s) := by
  rw [step] at h
  split at h
  · rename_i hpushed
    cases h
    exact .inl ⟨hpushed, rfl⟩
  · have h : p.afterRound.follow now = .ok s := h
    rw [follow] at h
    obtain ⟨state, hj, h⟩ := bind_eq_ok.1 h
    cases state with
    | underfilled i => exact .inr (.inl ⟨i, hj, (pure_eq_ok.1 h).symm⟩)
    | part => exact .inr (.inr (.inl ⟨hj, (pure_eq_ok.1 h).symm⟩))
    | filled engaged => exact .inr (.inr (.inr ⟨engaged, hj, h⟩))

theorem step_of_still (h : p.graph.pushFlow.2 = 0) : p.step now = .ok .exhausted := by
  rw [step, if_pos h]

theorem step_eq_found {record : OneToManyMatch} (h : p.step now = .ok (.found record q)) :
    q = p.afterRound ∧ p.afterRound.Gives now record := by
  obtain ⟨-, h⟩ | ⟨i, -, h⟩ | ⟨-, h⟩ | ⟨engaged, hj, h⟩ := step_cases h
  · cases h
  · cases h
  · cases h
  · obtain ⟨rfl, hreceived, hsum⟩ := judge_eq_filled hj
    obtain ⟨rfl, hmade⟩ := settle_eq_found h
    exact ⟨rfl, hreceived, hsum, hmade⟩

theorem Reachable.step {s : Step} (r : Reachable chain root pool p) (h : p.step now = .ok s)
    (hq : s.pass? = some q) : Reachable chain root pool q := by
  obtain ⟨-, rfl⟩ | ⟨i, -, rfl⟩ | ⟨-, rfl⟩ | ⟨engaged, -, hsettled⟩ := step_cases h
  · cases hq
  · cases hq
    exact r.round.dropCandidate i
  · cases hq
    exact r.round
  · cases s with
    | exhausted => cases hq
    | found record q' =>
      cases hq
      rw [(settle_eq_found hsettled).1]
      exact r.round
    | more q' =>
      cases hq
      rw [settle_eq_more hsettled]
      exact r.round.dropMain

theorem Sound.judge_ok (s : Sound chain root pool p) (engaged : List Nat) :
    ∃ state, p.judge engaged = .ok state := by
  have hover : engaged.find? (fun i => p.expected i < p.received i) = none := by
    rw [List.find?_eq_none]
    intro i _
    simpa using s.received_le i
  rw [judge]
  rw [hover]
  dsimp only
  split
  · exact ⟨_, rfl⟩
  · split <;> exact ⟨_, rfl⟩

theorem Sound.failsOnly_follow (s : Sound chain root pool p) :
    FailsOnly MatchError.IsApart (p.follow now) := by
  obtain ⟨state, hstate⟩ := s.judge_ok p.engaged
  rw [follow]
  rw [hstate]
  refine .bind (.ok state) fun state' _ => ?_
  split
  · exact p.failsOnly_settle _ now
  · exact .pure _
  · exact .pure _

theorem Sound.failsOnly_step (s : Sound chain root pool p) :
    FailsOnly MatchError.IsApart (p.step now) := by
  rw [step]
  split
  · exact .ok _
  · exact s.afterRound.failsOnly_follow

end FlowPass

namespace OneToMany

/-- What a search does next, by where it stands. -/
inductive Moves (s : OneToMany) : Move → Prop
  | ended : s.finished = true → Moves s (.stop s)
  | emptied : s.pass = none → s.pool = [] → Moves s (.stop { s with finished := true })
  | unbuilt {pool : List ResolvedOrder} {e : MatchError} : s.pass = none → s.pool = pool →
      FlowPass.build s.chain s.root pool = .error e →
      Moves s (.give (.error e) { s with finished := true })
  | built {c : ResolvedOrder} {rest : List ResolvedOrder} {p : FlowPass} : s.pass = none →
      s.pool = c :: rest → FlowPass.build s.chain s.root (c :: rest) = .ok p →
      Moves s (.go { s with pass := some p, pool := rest })
  | failed {p : FlowPass} {e : MatchError} : s.pass = some p → p.step s.now = .error e →
      Moves s (.give (.error e) { s with finished := true })
  | exhausted {p : FlowPass} : s.pass = some p → p.step s.now = .ok .exhausted →
      Moves s (.go { s with pass := none })
  | more {p q : FlowPass} : s.pass = some p → p.step s.now = .ok (.more q) →
      Moves s (.go { s with pass := some q })
  | known {p q : FlowPass} {record : OneToManyMatch} : s.pass = some p →
      p.step s.now = .ok (.found record q) → s.yielded.contains record.id = true →
      Moves s (.go { s with pass := some q })
  | found {p q : FlowPass} {record : OneToManyMatch} : s.pass = some p →
      p.step s.now = .ok (.found record q) → s.yielded.contains record.id = false →
      Moves s (.give (.ok record) { s with pass := some q, yielded := record.id :: s.yielded })

theorem moves_movePass {s : OneToMany} {p : FlowPass} (hp : s.pass = some p) :
    Moves s (s.movePass p) := by
  rw [movePass]
  split
  · rename_i e he
    exact .failed hp he
  · rename_i he
    exact .exhausted hp he
  · rename_i q hq
    exact .more hp hq
  · rename_i record q hq
    cases hknown : s.yielded.contains record.id with
    | true => exact .known hp hq hknown
    | false => exact .found hp hq hknown

theorem moves_move (s : OneToMany) : Moves s s.move := by
  rw [move]
  split
  · rename_i hfinished
    exact .ended hfinished
  · split
    · rename_i p hp
      exact moves_movePass hp
    · rename_i hpass hpool
      exact .emptied hpass hpool
    · rename_i c rest hpass hpool
      split
      · rename_i e he
        exact .unbuilt hpass hpool he
      · rename_i p hp
        exact .built hpass hpool hp

theorem settings_of_move {s t : OneToMany} (h : s.move.after? = some t) :
    t.chain = s.chain ∧ t.root = s.root ∧ t.now = s.now ∧ t.pool <:+ s.pool := by
  have hm := moves_move s
  generalize s.move = m at h hm
  cases hm with
  | ended => cases h
  | emptied => cases h
  | @built c rest _ _ hpool _ =>
    cases h
    exact ⟨rfl, rfl, rfl, hpool ▸ List.suffix_cons c rest⟩
  | _ =>
    cases h
    exact ⟨rfl, rfl, rfl, List.suffix_refl _⟩

/-- Where the pass of a search comes from: it was there, was just built, or has made a step. -/
theorem pass_of_move {s t : OneToMany} {q : FlowPass} (h : s.move.after? = some t)
    (hq : t.pass = some q) : s.pass = some q ∨
      (∃ c rest, s.pool = c :: rest ∧ FlowPass.build s.chain s.root (c :: rest) = .ok q) ∨
      ∃ p step, s.pass = some p ∧ p.step s.now = .ok step ∧ step.pass? = some q := by
  have hm := moves_move s
  generalize s.move = m at h hm
  cases hm with
  | ended => cases h
  | emptied => cases h
  | unbuilt =>
    cases h
    exact .inl hq
  | built _ hpool hp =>
    cases h
    cases hq
    exact .inr (.inl ⟨_, _, hpool, hp⟩)
  | failed =>
    cases h
    exact .inl hq
  | exhausted =>
    cases h
    cases hq
  | more hp hstep =>
    cases h
    cases hq
    exact .inr (.inr ⟨_, _, hp, hstep, rfl⟩)
  | known hp hstep =>
    cases h
    cases hq
    exact .inr (.inr ⟨_, _, hp, hstep, rfl⟩)
  | found hp hstep =>
    cases h
    cases hq
    exact .inr (.inr ⟨_, _, hp, hstep, rfl⟩)

theorem move_of_finished {s : OneToMany} (h : s.finished = true) : s.move = .stop s := by
  rw [move, if_pos h]

inductive Reaches (s : OneToMany) : OneToMany → Prop
  | start : Reaches s s
  | move {t u : OneToMany} : Reaches s t → t.move.after? = some u → Reaches s u

theorem Reaches.trans {s t u : OneToMany} (p : Reaches s t) (q : Reaches t u) : Reaches s u := by
  induction q with
  | start => exact p
  | move _ h ih => exact ih.move h

theorem reaches_next {s t : OneToMany} {r : Result OneToManyMatch} (h : s.next = (some r, t)) :
    ∃ u, Reaches s u ∧ u.move = .give r t := by
  fun_induction next s with
  | case1 s u hm => simp at h
  | case2 s r' u hm =>
    obtain ⟨rfl, rfl⟩ : r' = r ∧ u = t := by simpa using h
    exact ⟨s, .start, hm⟩
  | case3 s u hm ih =>
    obtain ⟨v, hv, hgive⟩ := ih h
    exact ⟨v, (Reaches.start.move (by rw [hm]; rfl)).trans hv, hgive⟩

theorem reaches_drain {s : OneToMany} {x : Result OneToManyMatch × Nat} (h : x ∈ s.drain.1) :
    ∃ t u, Reaches s t ∧ t.move = .give x.1 u ∧ x.2 = u.pool.length := by
  fun_induction drain s with
  | case1 s t hn => simp at h
  | case2 s r t hn rest last hrest ih =>
    obtain ⟨u, hu, hgive⟩ := reaches_next hn
    rcases List.mem_cons.1 h with rfl | h
    · exact ⟨u, t, hu, hgive, rfl⟩
    · obtain ⟨v, w, hv, hw⟩ := ih (by rw [hrest]; exact h)
      exact ⟨v, w, (hu.move (by rw [hgive]; rfl)).trans hv, hw⟩

/-! What is found, move by move -/

theorem next_of_stop {s t : OneToMany} (h : s.move = .stop t) : s.next = (none, t) := by
  rw [next]
  split
  · rename_i u hu
    cases h.symm.trans hu
    rfl
  · rename_i hu
    cases h.symm.trans hu
  · rename_i hu
    cases h.symm.trans hu

theorem next_of_give {s t : OneToMany} {r : Result OneToManyMatch} (h : s.move = .give r t) :
    s.next = (some r, t) := by
  rw [next]
  split
  · rename_i hu
    cases h.symm.trans hu
  · rename_i hu
    cases h.symm.trans hu
    rfl
  · rename_i hu
    cases h.symm.trans hu

theorem next_of_go {s t : OneToMany} (h : s.move = .go t) : s.next = t.next := by
  rw [next]
  split
  · rename_i hu
    cases h.symm.trans hu
  · rename_i hu
    cases h.symm.trans hu
  · rename_i hu
    cases h.symm.trans hu
    rfl

theorem drain_eq (s : OneToMany) : s.drain =
    match s.next with
    | (none, t) => ([], t)
    | (some r, t) => ((r, t.pool.length) :: t.drain.1, t.drain.2) := by
  rw [drain]
  split
  · rename_i hn
    rw [hn]
  · rename_i hn
    rw [hn]

theorem mem_drain_of_next {s t : OneToMany} {r : Result OneToManyMatch} (h : s.next = (some r, t)) :
    (r, t.pool.length) ∈ s.drain.1 := by
  rw [drain_eq, h]
  exact List.mem_cons_self

theorem drain_of_stop {s t : OneToMany} (h : s.move = .stop t) : s.drain = ([], t) := by
  rw [drain_eq, next_of_stop h]

theorem drain_of_give {s t : OneToMany} {r : Result OneToManyMatch} (h : s.move = .give r t) :
    s.drain = ((r, t.pool.length) :: t.drain.1, t.drain.2) := by
  rw [drain_eq, next_of_give h]

theorem drain_of_go {s t : OneToMany} (h : s.move = .go t) : s.drain = t.drain := by
  rw [drain_eq s, drain_eq t, next_of_go h]

def results (s : OneToMany) : List (Result OneToManyMatch) := s.drain.1.map (·.1)

theorem results_of_stop {s t : OneToMany} (h : s.move = .stop t) : s.results = [] := by
  rw [results, drain_of_stop h]
  rfl

theorem results_of_give {s t : OneToMany} {r : Result OneToManyMatch} (h : s.move = .give r t) :
    s.results = r :: t.results := by
  rw [results, drain_of_give h]
  rfl

theorem results_of_go {s t : OneToMany} (h : s.move = .go t) : s.results = t.results := by
  rw [results, results, drain_of_go h]

theorem records_eq (s : OneToMany) : s.records = s.results.mapM id := by
  rw [records, results, List.mapM_map]
  rfl

/-- What a number of moves finds. -/
def foundIn : Nat → OneToMany → List (Result OneToManyMatch × Nat)
  | 0, _ => []
  | n + 1, s =>
    match s.move with
    | .stop _ => []
    | .give r t => (r, t.pool.length) :: foundIn n t
    | .go t => foundIn n t

def stopsIn : Nat → OneToMany → Bool
  | 0, _ => false
  | n + 1, s =>
    match s.move with
    | .stop _ => true
    | .give _ t => stopsIn n t
    | .go t => stopsIn n t

theorem drain_eq_foundIn {n : Nat} {s : OneToMany} (h : stopsIn n s = true) :
    s.drain.1 = foundIn n s := by
  induction n generalizing s with
  | zero => cases h
  | succ n ih =>
    rw [stopsIn] at h
    rw [foundIn]
    cases hm : s.move with
    | stop t => rw [drain_of_stop hm]
    | give r t =>
      rw [hm] at h
      rw [drain_of_give hm]
      exact congrArg _ (ih h)
    | go t =>
      rw [hm] at h
      rw [drain_of_go hm]
      exact ih h

theorem drain_start_eq {n : Nat} {chain : PolicyChain} {root : ResolvedOrder}
    {candidates pool : List ResolvedOrder} {now : UInt64} (hpool : poolOf root candidates = pool)
    (hstop : stopsIn n { chain, root, now, pool } = true) :
    (start chain root candidates now).drain.1 = foundIn n { chain, root, now, pool } := by
  rw [start, hpool, drain_eq_foundIn hstop]

/-- What the states of a run over a pool have in common. -/
structure Runs (chain : PolicyChain) (root : ResolvedOrder) (now : UInt64)
    (pool : List ResolvedOrder) (s : OneToMany) : Prop where
  sameChain : s.chain = chain
  sameRoot : s.root = root
  sameNow : s.now = now
  suffix : s.pool <:+ pool
  reachable : ∀ {p : FlowPass}, s.pass = some p →
    ∃ rest, rest <:+ pool ∧ FlowPass.Reachable chain root rest p

variable {chain : PolicyChain} {root : ResolvedOrder} {now : UInt64} {pool : List ResolvedOrder}
  {s t : OneToMany}

theorem runs_start (chain : PolicyChain) (root : ResolvedOrder) (candidates : List ResolvedOrder)
    (now : UInt64) : Runs chain root now (poolOf root candidates) (start chain root candidates now) :=
  ⟨rfl, rfl, rfl, List.suffix_refl _, fun h => by simp [start] at h⟩

theorem Runs.move (r : Runs chain root now pool s) (h : s.move.after? = some t) :
    Runs chain root now pool t := by
  obtain ⟨hchain, hroot, hnow, hsuffix⟩ := settings_of_move h
  refine ⟨hchain.trans r.sameChain, hroot.trans r.sameRoot, hnow.trans r.sameNow,
    hsuffix.trans r.suffix, fun hq => ?_⟩
  obtain hsame | ⟨c, rest, hpool, hbuilt⟩ | ⟨p, step, hp, hstep, hnext⟩ := pass_of_move h hq
  · exact r.reachable hsame
  · rw [r.sameChain, r.sameRoot] at hbuilt
    exact ⟨c :: rest, hpool ▸ r.suffix, .build hbuilt⟩
  · obtain ⟨rest, hrest, hreach⟩ := r.reachable hp
    exact ⟨rest, hrest, hreach.step hstep hnext⟩

theorem Runs.reaches (r : Runs chain root now pool s) (h : Reaches s t) :
    Runs chain root now pool t := by
  induction h with
  | start => exact r
  | move _ hm ih => exact ih.move hm

theorem Runs.give_ok (r : Runs chain root now pool s) {record : OneToManyMatch}
    (h : s.move = .give (.ok record) t) :
    ∃ rest p, rest <:+ pool ∧ FlowPass.Reachable chain root rest p ∧ p.Gives now record := by
  have hm := moves_move s
  rw [h] at hm
  cases hm with
  | @found p q _ hp hstep _ =>
    obtain ⟨rest, hrest, hreach⟩ := r.reachable hp
    rw [r.sameNow] at hstep
    exact ⟨rest, p.afterRound, hrest, hreach.round, (FlowPass.step_eq_found hstep).2⟩

theorem Runs.give_error (r : Runs chain root now pool s) {e : MatchError}
    (h : s.move = .give (.error e) t) : e.IsApart := by
  have hm := moves_move s
  rw [h] at hm
  cases hm with
  | unbuilt _ _ he => exact FlowPass.failsOnly_build _ _ _ _ he
  | failed hp he =>
    obtain ⟨rest, -, hreach⟩ := r.reachable hp
    exact hreach.sound.failsOnly_step _ he

end OneToMany

end OrderBook

import OrderBook.Proofs.Search.NoFailure
import OrderBook.Proofs.Search.QueuePasses

/-!
When a one-to-many search finds something. A pass serves its candidates in turn. If they fill the root
at a price, that is a record. If they fill it without a price, the oldest candidate leaves with its
unit, the others have another turn, and that is all that the pass tries. So a search may miss a fill
in which a younger candidate would have to take the unit of an older one, or in which another
candidate than the oldest would have to leave.
-/

namespace OrderBook

open Queue (served)

variable {chain : PolicyChain} {root r : ResolvedOrder} {pool rest : List ResolvedOrder} {n : Nat}
  {q : Queue} {now : UInt64}

namespace OneToMany

variable {p : FlowPass}

/-- How a search that has found nothing yet goes on from a pass that serves the queue `q`. -/
inductive GoesOn (chain : PolicyChain) (root : ResolvedOrder) (now : UInt64) (p : FlowPass)
    (rest : List ResolvedOrder) (q : Queue) : Prop
  | failed {e : MatchError} : (inPass chain root now p rest []).next.1 = some (.error e) →
      GoesOn chain root now p rest q
  | found {record : OneToManyMatch} :
      (served (serve chain root [] q)).length = root.order.numItems.toNat →
      Clears root (served (serve chain root [] q)) now →
      (inPass chain root now p rest []).next.1 = some (.ok record) → GoesOn chain root now p rest q
  | unpriced : (served (serve chain root [] q)).length = root.order.numItems.toNat →
      ¬ Clears root (served (serve chain root [] q)) now →
      (inPass chain root now p rest []).next =
        (inPass chain root now p.afterRound.dropMain rest []).next → GoesOn chain root now p rest q
  | unfilled : (served (serve chain root [] q)).length ≠ root.order.numItems.toNat →
      (inPass chain root now p rest []).next = (between chain root now rest []).next →
      GoesOn chain root now p rest q
  | still : (served (serve chain root [] q)).length = (served q).length →
      (inPass chain root now p rest []).next = (between chain root now rest []).next →
      GoesOn chain root now p rest q

theorem next_of_still (h : p.graph.pushFlow.2 = 0) :
    (inPass chain root now p rest []).next = (between chain root now rest []).next :=
  next_of_go (move_exhausted (by rw [FlowPass.step, if_pos h]))

theorem goesOn_of_follows (f : FlowPass.Follows chain root pool n q p)
    (hroot : root.isEligibleRoot = true) : GoesOn chain root now p rest q := by
  obtain ⟨g, -⟩ := f.afterRound hroot
  have hstep := f.step_eq hroot now
  by_cases hstill : (served (serve chain root [] q)).length = (served q).length
  · rw [if_pos hstill] at hstep
    exact .still hstill (next_of_go (move_exhausted hstep))
  · rw [if_neg hstill] at hstep
    by_cases hfilled : (served (serve chain root [] q)).length = root.order.numItems.toNat
    · rw [if_pos hfilled, FlowPass.settle_eq] at hstep
      cases hc : (p.afterRound.clearing? p.afterRound.engaged now).forgive with
      | error e =>
        rw [hc] at hstep
        exact .failed (congrArg Prod.fst (next_of_give (move_failed hstep)))
      | ok clearing =>
        rw [hc] at hstep
        cases clearing with
        | none =>
          refine .unpriced hfilled (fun h => ?_) (next_of_go (move_more hstep))
          obtain ⟨clearing, h⟩ := g.clearing_iff.2 h
          rw [h] at hc
          cases hc
        | some clearing =>
          have hclears := g.clearing_iff.1 ⟨clearing, forgive_eq_some hc⟩
          exact .found hfilled hclears
            (congrArg Prod.fst (next_of_give (move_new hstep List.not_mem_nil)))
    · rw [if_neg hfilled] at hstep
      refine .unfilled hfilled ((next_of_go (move_more hstep)).trans ?_)
      exact next_of_still f.sound.pushed_afterRound

/-- The queues that a search over a pool tries to fill the root with. -/
inductive Tries (chain : PolicyChain) (root : ResolvedOrder) : List ResolvedOrder → Queue → Prop
  | all (pool : List ResolvedOrder) : Tries chain root pool (serveAll chain root pool)
  /-- A fill without a price is followed by one without the oldest candidate. -/
  | others (pool : List ResolvedOrder) :
      Fills chain root pool (served (serveAll chain root pool)) →
      Tries chain root pool (serveOthers chain root pool)
  | later (r : ResolvedOrder) {pool : List ResolvedOrder} {q : Queue} :
      Tries chain root pool q → Tries chain root (r :: pool) q

theorem Tries.fair (h : Tries chain root pool q) : q.Fair chain root := by
  induction h with
  | all pool => exact (Queue.Fair.ofPool pool).serve
  | others pool _ => exact (Queue.Fair.ofPool pool).serve.tail.serve
  | later r _ ih => exact ih

theorem Tries.sublist (h : Tries chain root pool q) : (q.map Prod.fst).Sublist pool := by
  induction h with
  | all pool => rw [map_fst_serveAll]
  | others pool _ =>
    rw [serveOthers, map_fst_serve, List.map_tail, map_fst_serveAll]
    exact List.tail_sublist pool
  | later r _ ih => exact ih.cons r

theorem Tries.fills_iff (h : Tries chain root pool q) (hroot : root.isEligibleRoot = true) :
    Fills chain root pool (served q) ↔ (served q).length = root.order.numItems.toNat :=
  h.fair.fills_iff hroot h.sublist

/-- What the first result of a search over a pool says about the queues that it tries. -/
inductive Settles (chain : PolicyChain) (root : ResolvedOrder) (now : UInt64)
    (pool : List ResolvedOrder) : Option (Result OneToManyMatch) → Prop
  | failed (e : MatchError) : Settles chain root now pool (some (.error e))
  | found (record : OneToManyMatch) {q : Queue} : Tries chain root pool q →
      Fills chain root pool (served q) → Clears root (served q) now →
      Settles chain root now pool (some (.ok record))
  | nothing : (∀ q, Tries chain root pool q → Fills chain root pool (served q) →
      ¬ Clears root (served q) now) → Settles chain root now pool none

theorem Settles.cons {first : Option (Result OneToManyMatch)} (h : Settles chain root now pool first)
    (hroot : root.isEligibleRoot = true)
    (hall : Fills chain root (r :: pool) (served (serveAll chain root (r :: pool))) →
      ¬ Clears root (served (serveAll chain root (r :: pool))) now)
    (hothers : Fills chain root (r :: pool) (served (serveAll chain root (r :: pool))) →
      Fills chain root (r :: pool) (served (serveOthers chain root (r :: pool))) →
        ¬ Clears root (served (serveOthers chain root (r :: pool))) now) :
    Settles chain root now (r :: pool) first := by
  cases h with
  | failed e => exact .failed e
  | found record hq hfills hclears =>
    have hfills := ((hq.later r).fills_iff hroot).2 ((hq.fills_iff hroot).1 hfills)
    exact .found record (hq.later r) hfills hclears
  | nothing hnone =>
    refine .nothing fun q hq hfills => ?_
    have hlength := (hq.fills_iff hroot).1 hfills
    cases hq with
    | all => exact hall hfills
    | others _ hfirst => exact hothers hfirst hfills
    | later _ hq => exact hnone q hq ((hq.fills_iff hroot).2 hlength)

/-- If the others fill the root without another turn, the main candidate had nothing to give back. -/
theorem serve_tail_of_filled {x : ResolvedOrder × Option Take}
    (hfair : Queue.Fair chain root (x :: q)) (hroot : root.isEligibleRoot = true)
    (hfilled : (served (x :: q)).length = root.order.numItems.toNat)
    (hothers : (served q).length = root.order.numItems.toNat) :
    served (serve chain root [] q) = served (x :: q) := by
  have hserve : serve chain root [] q = q :=
    serve_of_filled hfair.tail hroot (Nat.le_of_eq hothers.symm)
  obtain ⟨r, take⟩ := x
  cases take with
  | none => rw [hserve, Queue.served_cons_none]
  | some t =>
    rw [Queue.served_cons_some, List.length_cons] at hfilled
    omega

theorem settles_others {x : ResolvedOrder × Option Take} (hroot : root.isEligibleRoot = true)
    (hqueue : serveAll chain root (r :: rest) = x :: q)
    (f : FlowPass.Follows chain root (r :: rest) 1 q p)
    (hfilled : (served (serveAll chain root (r :: rest))).length = root.order.numItems.toNat)
    (hclears : ¬ Clears root (served (serveAll chain root (r :: rest))) now)
    (hrest : Settles chain root now rest (between chain root now rest []).next.1) :
    Settles chain root now (r :: rest) (inPass chain root now p rest []).next.1 := by
  have htries : Tries chain root (r :: rest) (serveAll chain root (r :: rest)) := .all _
  have hfills := (htries.fills_iff hroot).2 hfilled
  have hothers := (Tries.others (r :: rest) hfills).fills_iff hroot
  have hserve : serve chain root [] q = serveOthers chain root (r :: rest) := by
    rw [serveOthers, hqueue]
    rfl
  have hgoes : GoesOn chain root now p rest q := goesOn_of_follows f hroot
  cases hgoes with
  | failed h =>
    rw [h]
    exact .failed _
  | found hlength hclears h =>
    rw [h]
    rw [hserve] at hlength hclears
    exact .found _ (.others _ hfills) (hothers.2 hlength) hclears
  | unfilled hlength h =>
    rw [h]
    rw [hserve] at hlength
    exact hrest.cons hroot (fun _ => hclears) fun _ hfills => absurd (hothers.1 hfills) hlength
  | still hstill h =>
    rw [h]
    refine hrest.cons hroot (fun _ => hclears) fun _ hsame => ?_
    have hsame := hothers.1 hsame
    rw [← hserve, hstill] at hsame
    have hfair : Queue.Fair chain root (x :: q) := hqueue ▸ htries.fair
    rw [← hserve, serve_tail_of_filled hfair hroot (hqueue ▸ hfilled) hsame, ← hqueue]
    exact hclears
  | unpriced _ hunpriced h =>
    -- The main candidate is dropped again, which changes nothing.
    rw [h, next_of_still]
    · rw [hserve] at hunpriced
      exact hrest.cons hroot (fun _ => hclears) fun _ _ => hunpriced
    · rw [(f.afterRound hroot).1.pushed_dropMain]
      exact f.sound.pushed_afterRound

theorem settles_inPass (hroot : root.isEligibleRoot = true)
    (hpool : ∀ x ∈ r :: rest, x.order.numItems = 1)
    (hp : FlowPass.build chain root (r :: rest) = .ok p)
    (hrest : Settles chain root now rest (between chain root now rest []).next.1) :
    Settles chain root now (r :: rest) (inPass chain root now p rest []).next.1 := by
  have f := FlowPass.follows_build hroot hpool hp
  have htries : Tries chain root (r :: rest) (serveAll chain root (r :: rest)) := .all _
  have hall := htries.fills_iff hroot
  have hgoes : GoesOn chain root now p rest (.ofPool (r :: rest)) := goesOn_of_follows f hroot
  cases hgoes with
  | failed h =>
    rw [h]
    exact .failed _
  | found hlength hclears h =>
    rw [h]
    exact .found _ (.all _) (hall.2 hlength) hclears
  | unfilled hlength h =>
    rw [h]
    exact hrest.cons hroot (fun hfills => absurd (hall.1 hfills) hlength)
      fun hfills => absurd (hall.1 hfills) hlength
  | still hlength h =>
    have hnone : (served (serveAll chain root (r :: rest))).length ≠ root.order.numItems.toNat := by
      rw [serveAll, hlength, Queue.served_ofPool, List.length_nil]
      exact Nat.ne_of_lt (ResolvedOrder.numItems_pos hroot)
    rw [h]
    exact hrest.cons hroot (fun hfills => absurd (hall.1 hfills) hnone)
      fun hfills => absurd (hall.1 hfills) hnone
  | unpriced hlength hclears h =>
    obtain ⟨x, others, hqueue⟩ := exists_cons_serveAll chain root r rest
    have g := (f.afterRound hroot).1
    rw [← serveAll, hqueue] at g
    rw [h]
    exact settles_others hroot hqueue g.dropMain hlength hclears hrest

theorem settles_between (hroot : root.isEligibleRoot = true)
    (hpool : ∀ x ∈ pool, x.order.numItems = 1) :
    Settles chain root now pool (between chain root now pool []).next.1 := by
  induction pool with
  | nil =>
    have hmove : (between chain root now [] []).move =
        .stop { between chain root now [] [] with finished := true } := rfl
    rw [next_of_stop hmove]
    refine .nothing fun q hq hfills => ?_
    have hlength := (hq.fills_iff hroot).1 hfills
    have hnil : q = [] := List.map_eq_nil_iff.1 (List.sublist_nil.1 hq.sublist)
    rw [hnil] at hlength
    exact absurd hlength.symm (Nat.ne_of_gt (ResolvedOrder.numItems_pos hroot))
  | cons r rest ih =>
    cases hp : FlowPass.build chain root (r :: rest) with
    | error e =>
      rw [next_of_give (move_unbuilt hp)]
      exact .failed e
    | ok p =>
      rw [next_of_go (move_built hp)]
      exact settles_inPass hroot hpool hp (ih fun x hx => hpool x (List.mem_cons_of_mem _ hx))

theorem drain_of_failed {s t : OneToMany} {e : MatchError} (h : s.next = (some (.error e), t)) :
    s.drain.1 = [(.error e, t.pool.length)] := by
  obtain ⟨u, -, hgive⟩ := reaches_next h
  have hfinished : t.finished = true := by
    have hmoves := moves_move u
    rw [hgive] at hmoves
    cases hmoves with
    | unbuilt => rfl
    | failed => rfl
  have hstop : t.move = .stop t := by
    rw [move, if_pos hfinished]
  rw [drain_eq, h]
  simp only [drain_of_stop hstop]

def GivesRecord (s : OneToMany) : Prop := ∃ record waiting, (.ok record, waiting) ∈ s.drain.1

/-- That a search ends because two spreads are so far apart that their difference is no number. -/
def EndsApart (s : OneToMany) : Prop := ∃ waiting, (.error .spreadsTooFarApart, waiting) ∈ s.drain.1

theorem givesRecord_iff {s : OneToMany} :
    s.GivesRecord ↔ ∃ record, s.next.1 = some (.ok record) := by
  obtain ⟨first, t, hnext⟩ : ∃ first t, s.next = (first, t) := ⟨_, _, rfl⟩
  rw [GivesRecord, hnext]
  cases first with
  | none =>
    rw [drain_eq, hnext]
    simp
  | some result =>
    cases result with
    | error e =>
      rw [drain_of_failed hnext]
      simp
    | ok record =>
      rw [drain_eq, hnext]
      exact ⟨fun _ => ⟨record, rfl⟩, fun _ => ⟨record, _, List.mem_cons_self⟩⟩

section Search

variable {candidates : List ResolvedOrder} (hroot : root.isEligibleRoot = true)

include hroot

theorem settles_start : Settles chain root now (poolOf root candidates)
    (start chain root candidates now).next.1 :=
  settles_between hroot fun _ hr => (isPoolCandidate_iff.1 (mem_poolOf.1 hr).2).1

theorem exists_tries_of_givesRecord (h : (start chain root candidates now).GivesRecord) :
    ∃ q, Tries chain root (poolOf root candidates) q ∧
      Fills chain root (poolOf root candidates) (served q) ∧ Clears root (served q) now := by
  obtain ⟨record, hfirst⟩ := givesRecord_iff.1 h
  have hsettles : Settles chain root now (poolOf root candidates) _ := settles_start hroot
  rw [hfirst] at hsettles
  cases hsettles with
  | found _ hq hfills hclears => exact ⟨_, hq, hfills, hclears⟩

theorem givesRecord_of_tries (hq : Tries chain root (poolOf root candidates) q)
    (hfills : Fills chain root (poolOf root candidates) (served q)) (hclears : Clears root (served q) now)
    (hend : ¬ (start chain root candidates now).EndsApart) :
    (start chain root candidates now).GivesRecord := by
  have hsettles : Settles chain root now (poolOf root candidates) _ := settles_start hroot
  obtain ⟨first, t, hnext⟩ : ∃ first t, (start chain root candidates now).next = (first, t) :=
    ⟨_, _, rfl⟩
  rw [hnext] at hsettles
  cases hsettles with
  | failed e =>
    have hmem : (.error e, t.pool.length) ∈ (start chain root candidates now).drain.1 := by
      rw [drain_of_failed hnext]
      exact List.mem_cons_self
    have hapart : e = .spreadsTooFarApart := failsOnly_drain chain root candidates now hmem e rfl
    exact absurd ⟨_, hapart ▸ hmem⟩ hend
  | found record => exact givesRecord_iff.2 ⟨record, congrArg Prod.fst hnext⟩
  | nothing hnone => exact absurd hclears (hnone q hq hfills)

end Search

/-- A search gives a record if and only if one of the queues that it tries fills the root at a price,
unless it ends apart. So it finds every root that its pool can fill, where no candidate has a choice
and all fills have a price. -/
theorem givesRecord_start (chain : PolicyChain) (root : ResolvedOrder)
    (candidates : List ResolvedOrder) (now : UInt64) (hroot : root.isEligibleRoot = true) :
    let search := start chain root candidates now
    let pool := poolOf root candidates
    (search.GivesRecord →
      ∃ q, Tries chain root pool q ∧ Fills chain root pool (served q) ∧ Clears root (served q) now) ∧
    ((∃ q, Tries chain root pool q ∧ Fills chain root pool (served q) ∧ Clears root (served q) now) →
      ¬ search.EndsApart → search.GivesRecord) ∧
    (Unambiguous chain root pool → (∃ s, Fills chain root pool s) →
      (∀ s, Fills chain root pool s → Clears root s now) →
      ¬ search.EndsApart → search.GivesRecord) := by
  intro search pool
  refine ⟨exists_tries_of_givesRecord hroot, ?_, ?_⟩
  · rintro ⟨q, hq, hfills, hclears⟩ hend
    exact givesRecord_of_tries hroot hq hfills hclears hend
  · rintro hone ⟨s, hs⟩ hclears hend
    have hfills := hone.fills_serveAll hs
    exact givesRecord_of_tries hroot (.all pool) hfills (hclears _ hfills) hend

theorem givesRecord_bidForTwo : bidForTwo.isEligibleRoot = true ∧
    Unambiguous .default bidForTwo asksForTwo ∧
    Fills .default bidForTwo asksForTwo [(askForOne "a" "1", ⟨0, 0⟩), (askForOne "b" "2", ⟨1, 0⟩)] ∧
    (∀ s, Fills .default bidForTwo asksForTwo s → Clears bidForTwo s 7) ∧
    ¬ (start .default bidForTwo asksForTwo 7).EndsApart ∧
    (start .default bidForTwo asksForTwo 7).GivesRecord ∧
    ∃ q, Tries .default bidForTwo asksForTwo q ∧ Fills .default bidForTwo asksForTwo (served q) ∧
      Clears bidForTwo (served q) 7 := by
  have hroot : bidForTwo.isEligibleRoot = true := by decide +kernel
  have hpool : poolOf bidForTwo asksForTwo = asksForTwo :=
    poolOf_eq_self (by decide +kernel) (by decide +kernel)
  have hone : Unambiguous .default bidForTwo asksForTwo := by decide +kernel
  have hfills : Fills .default bidForTwo asksForTwo
      [(askForOne "a" "1", ⟨0, 0⟩), (askForOne "b" "2", ⟨1, 0⟩)] := by decide +kernel
  have hclears : ∀ s, Fills .default bidForTwo asksForTwo s → Clears bidForTwo s 7 := by
    intro s hs
    have hboth : s.map Prod.fst = asksForTwo := by
      refine hs.members.eq_of_length ?_
      rw [List.length_map, hs.length_eq hroot]
      rfl
    have horders : s.map (·.1.order) = asksForTwo.map (·.order) := by
      rw [← hboth, List.map_map]
      rfl
    rw [Clears, horders]
    exact ⟨_, _, rfl, rfl⟩
  have hend : ¬ (start .default bidForTwo asksForTwo 7).EndsApart := by
    rintro ⟨waiting, h⟩
    obtain ⟨record, left, hfound⟩ := foundOne_bidForTwo
    rw [hfound] at h
    cases List.mem_singleton.1 h
  have hgives := givesRecord_start .default bidForTwo asksForTwo 7 hroot
  simp only [hpool] at hgives
  obtain ⟨htries, -, hcomplete⟩ := hgives
  have hrecord := hcomplete hone ⟨_, hfills⟩ hclears hend
  exact ⟨hroot, hone, hfills, hclears, hend, hrecord, htries hrecord⟩

/-- That a search gives no record although its pool fills the root at a price. -/
def Misses (chain : PolicyChain) (root : ResolvedOrder) (candidates : List ResolvedOrder)
    (now : UInt64) (s : List (ResolvedOrder × Take)) : Prop :=
  Fills chain root (poolOf root candidates) s ∧ Clears root s now ∧
    ¬ (start chain root candidates now).GivesRecord

def askUntil (endTime : UInt64) (id : String) (token : Option String) : ResolvedOrder :=
  let price : Decimal := .ofUInt32 4
  let o : Order := { id := id, side := .sell, numItems := 1, price := ⟨price, price, 0, endTime⟩ }
  ⟨o, [{ o.item (id ++ "-" ++ token.getD "") "c" with tokenId := token }]⟩

/-- The older ask, which may give any token, takes the place of token 1, and the younger one has no
other. -/
def choosyLast : List ResolvedOrder := [askUntil 100 "a" none, askUntil 100 "b" (some "1")]

/-- The ask in the middle has no price at 7, but the one that is dropped for it is the oldest. -/
def lapsedSecond : List ResolvedOrder :=
  [askUntil 100 "a" (some "1"), askUntil 5 "b" (some "2"), askUntil 100 "c" (some "2")]

theorem misses_of_foundIn {n : Nat} {candidates : List ResolvedOrder} {s : List (ResolvedOrder × Take)}
    (hpool : poolOf root candidates = candidates) (hfills : Fills chain root candidates s)
    (hclears : Clears root s now)
    (hstop : stopsIn n { chain, root, now, pool := candidates } = true)
    (hnone : foundIn n { chain, root, now, pool := candidates } = []) :
    Misses chain root candidates now s := by
  refine ⟨hpool.symm ▸ hfills, hclears, ?_⟩
  rintro ⟨record, waiting, h⟩
  rw [drain_start_eq hpool hstop, hnone] at h
  cases h

/-- Who comes first may take the unit that another candidate needs, and who leaves may be the wrong
one. -/
theorem misses_fills : bidForTwo.isEligibleRoot = true ∧
    Misses .default bidForTwo choosyLast 7
      [(askUntil 100 "a" none, ⟨1, 0⟩), (askUntil 100 "b" (some "1"), ⟨0, 0⟩)] ∧
    Misses .default bidForTwo lapsedSecond 7
      [(askUntil 100 "a" (some "1"), ⟨0, 0⟩), (askUntil 100 "c" (some "2"), ⟨1, 0⟩)] := by
  refine ⟨by decide +kernel, ?_, ?_⟩
  · have hpool : poolOf bidForTwo choosyLast = choosyLast :=
      poolOf_eq_self (by decide +kernel) (by decide +kernel)
    exact misses_of_foundIn (n := 20) hpool (by decide +kernel) ⟨_, _, rfl, rfl⟩ rfl rfl
  · have hpool : poolOf bidForTwo lapsedSecond = lapsedSecond :=
      poolOf_eq_self (by decide +kernel) (by decide +kernel)
    exact misses_of_foundIn (n := 20) hpool (by decide +kernel) ⟨_, _, rfl, rfl⟩ rfl rfl

end OneToMany

end OrderBook

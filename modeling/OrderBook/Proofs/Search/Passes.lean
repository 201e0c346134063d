import Mathlib.Data.List.Infix
import OrderBook.Proofs.Search.ExactFill
import OrderBook.Proofs.Search.NoFailure
import OrderBook.Proofs.Search.Pool
import OrderBook.Proofs.Search.SilentCandidates

/-!
How long a one-to-many search takes. A round leaves nothing to push unless the main candidate goes
after it, and a candidate without lanes can go again without any change. So a pass has at most three
rounds, of which one may find a record, and a search has one pass for each candidate of its pool
unless an error ends it.
-/

namespace OrderBook

namespace FlowPass

variable {chain : PolicyChain} {root : ResolvedOrder} {pool : List ResolvedOrder} {p : FlowPass}
  {now : UInt64}

theorem mem_roundLanes {done lanes : List Lane} {l : Lane}
    (h : l ∈ (roundLanes root pool done lanes).1) :
    l ∈ done ∨ ∃ m ∈ lanes, ∃ n, l = m.addFlow n := by
  induction lanes generalizing done with
  | nil => exact .inl h
  | cons m lanes ih =>
    rcases ih h with h | ⟨m', hm', hl⟩
    · rcases List.mem_append.1 h with h | h
      · exact .inl h
      · exact .inr ⟨m, List.mem_cons_self, _, List.mem_singleton.1 h⟩
    · exact .inr ⟨m', List.mem_cons_of_mem _ hm', hl⟩

def WithoutMain (p : FlowPass) : Prop := ∀ l ∈ p.lanes, l.candidate ≠ 0

theorem Sound.withoutMain_dropMain (s : Sound chain root pool p) : p.dropMain.WithoutMain := by
  intro l hl
  rw [s.lanes_dropMain] at hl
  simpa using (List.mem_filter.1 hl).2

theorem Sound.withoutMain_afterRound (s : Sound chain root pool p) (h : p.WithoutMain) :
    p.afterRound.WithoutMain := by
  intro l hl
  rw [s.lanes_afterRound.1] at hl
  rcases mem_roundLanes hl with hl | ⟨m, hm, n, rfl⟩
  · cases hl
  · exact h m hm

theorem Sound.pushed_dropMain_of_withoutMain (s : Sound chain root pool p) (h : p.WithoutMain) :
    p.dropMain.graph.pushFlow.2 = p.graph.pushFlow.2 := by
  refine s.dropMain.pushed_congr s ?_
  rw [s.lanes_dropMain]
  exact List.filter_eq_self.2 fun l hl => decide_eq_true (h l hl)

/-- What a step of a pass over candidates of one token amounts to. -/
inductive Outcome (p : FlowPass) : Result Step → Prop
  | failed (e : MatchError) : Outcome p (.error e)
  | exhausted : p.graph.pushFlow.2 = 0 → Outcome p (.ok .exhausted)
  | found (record : OneToManyMatch) : Outcome p (.ok (.found record p.afterRound))
  | part : Outcome p (.ok (.more p.afterRound))
  | unpriced : Outcome p (.ok (.more p.afterRound.dropMain))

theorem Sound.outcome (s : Sound chain root pool p) (hpool : ∀ r ∈ pool, r.order.numItems = 1)
    (now : UInt64) : Outcome p (p.step now) := by
  rw [s.step_eq hpool, settle_eq]
  split
  · rename_i hpushed
    exact .exhausted hpushed
  · split
    · cases (p.afterRound.clearing? p.afterRound.engaged now).forgive with
      | error e => exact .failed e
      | ok clearing =>
        cases clearing with
        | none => exact .unpriced
        | some c => exact .found _
    · exact .part

end FlowPass

namespace OneToMany

/-- A pass of a search: the pool that it is built over, and what its rounds lead to. -/
structure PassLog where
  pool : List ResolvedOrder
  rounds : List (Result FlowPass.Step)

def foundBy? : Result FlowPass.Step → Option OneToManyMatch
  | .ok (.found record _) => some record
  | _ => none

def PassLog.records (log : PassLog) : List OneToManyMatch := log.rounds.filterMap foundBy?

/-- What a search still does: the rounds that are left to its pass, and the passes after it. -/
structure Journal where
  rounds : List (Result FlowPass.Step) := []
  passes : List PassLog := []

/-- Notes the move from one state to the next in front: a step of the pass is a round, and where there
was no pass before, one begins. -/
def Journal.note (j : Journal) (s t : OneToMany) : Journal :=
  match s.pass, t.pass with
  | some p, _ => { j with rounds := p.step s.now :: j.rounds }
  | none, some _ => ⟨[], ⟨s.pool, j.rounds⟩ :: j.passes⟩
  | none, none => j

def journal (s : OneToMany) : Journal :=
  match _h : s.move with
  | .stop _ => {}
  | .give _ t => (journal t).note s t
  | .go t => (journal t).note s t
termination_by s.work
decreasing_by all_goals exact (lessWork_move (by rw [_h]; rfl)).decreases

def passes (s : OneToMany) : List PassLog := s.journal.passes

theorem journal_of_stop {s t : OneToMany} (h : s.move = .stop t) : s.journal = {} := by
  rw [journal]
  split
  · rfl
  · rename_i hu
    cases h.symm.trans hu
  · rename_i hu
    cases h.symm.trans hu

theorem journal_of_give {s t : OneToMany} {r : Result OneToManyMatch} (h : s.move = .give r t) :
    s.journal = t.journal.note s t := by
  rw [journal]
  split
  · rename_i hu
    cases h.symm.trans hu
  · rename_i hu
    cases h.symm.trans hu
    rfl
  · rename_i hu
    cases h.symm.trans hu

theorem journal_of_go {s t : OneToMany} (h : s.move = .go t) : s.journal = t.journal.note s t := by
  rw [journal]
  split
  · rename_i hu
    cases h.symm.trans hu
  · rename_i hu
    cases h.symm.trans hu
  · rename_i hu
    cases h.symm.trans hu
    rfl

variable {chain : PolicyChain} {root r : ResolvedOrder} {now : UInt64} {pool : List ResolvedOrder}
  {yielded : List String} {p q : FlowPass}

/-! The journal, move by move -/

theorem journal_of_finished {s : OneToMany} (h : s.finished = true) : s.journal = {} :=
  journal_of_stop (move_of_finished h)

theorem journal_between_nil : (between chain root now [] yielded).journal = {} :=
  journal_of_stop rfl

theorem journal_between_built (hp : FlowPass.build chain root (r :: pool) = .ok p) :
    (between chain root now (r :: pool) yielded).journal =
      ⟨[], ⟨r :: pool, (inPass chain root now p pool yielded).journal.rounds⟩ ::
        (inPass chain root now p pool yielded).journal.passes⟩ := by
  rw [journal_of_go (move_built hp)]
  rfl

theorem journal_between_unbuilt {e : MatchError}
    (hp : FlowPass.build chain root (r :: pool) = .error e) :
    (between chain root now (r :: pool) yielded).journal = {} := by
  rw [journal_of_give (move_unbuilt hp), journal_of_finished rfl]
  rfl

theorem rounds_between : (between chain root now pool yielded).journal.rounds = [] := by
  cases pool with
  | nil => rw [journal_between_nil]
  | cons r pool =>
    cases hp : FlowPass.build chain root (r :: pool) with
    | ok p => rw [journal_between_built hp]
    | error e => rw [journal_between_unbuilt hp]

/-- How a search comes out of a pass: it ends with an error, goes on as if there had been no pass, or
goes on with one more record. -/
inductive Leaves (chain : PolicyChain) (root : ResolvedOrder) (now : UInt64)
    (pool : List ResolvedOrder) (yielded : List String) (s : OneToMany) : Prop
  | failed : s.results = [.error .spreadsTooFarApart] → s.journal.passes = [] →
      Leaves chain root now pool yielded s
  | silent : s.results = (between chain root now pool yielded).results →
      s.journal.passes = (between chain root now pool yielded).journal.passes →
      Leaves chain root now pool yielded s
  | found {record : OneToManyMatch} : record.id ∉ yielded →
      s.results = .ok record :: (between chain root now pool (record.id :: yielded)).results →
      s.journal.passes = (between chain root now pool (record.id :: yielded)).journal.passes →
      Leaves chain root now pool yielded s

/-- A search in a pass that has at most so many rounds and finds at most so many records. -/
structure Course (chain : PolicyChain) (root : ResolvedOrder) (now : UInt64)
    (pool : List ResolvedOrder) (yielded : List String) (s : OneToMany) (rounds records : Nat) : Prop where
  rounds_le : s.journal.rounds.length ≤ rounds
  records_le : (s.journal.rounds.filterMap foundBy?).length ≤ records
  leaves : Leaves chain root now pool yielded s

theorem Course.of_journal {s : OneToMany} {rounds : List (Result FlowPass.Step)}
    {logs : List PassLog} (h : s.journal = ⟨rounds, logs⟩) (l : Leaves chain root now pool yielded s) :
    Course chain root now pool yielded s rounds.length (rounds.filterMap foundBy?).length := by
  refine ⟨?_, ?_, l⟩
  · rw [h]
  · rw [h]

theorem Course.mono {s : OneToMany} {n m k l : Nat} (c : Course chain root now pool yielded s n k)
    (hn : n ≤ m) (hk : k ≤ l) : Course chain root now pool yielded s m l :=
  ⟨Nat.le_trans c.rounds_le hn, Nat.le_trans c.records_le hk, c.leaves⟩

theorem journal_inPass {t : OneToMany}
    (h : (inPass chain root now p pool yielded).move.after? = some t) :
    (inPass chain root now p pool yielded).journal =
      ⟨p.step now :: t.journal.rounds, t.journal.passes⟩ := by
  cases hm : (inPass chain root now p pool yielded).move with
  | stop u =>
    rw [hm] at h
    cases h
  | give r u =>
    rw [hm] at h
    cases h
    rw [journal_of_give hm]
    rfl
  | go u =>
    rw [hm] at h
    cases h
    rw [journal_of_go hm]
    rfl

theorem journal_of_still (h : p.graph.pushFlow.2 = 0) :
    (inPass chain root now p pool yielded).journal =
      ⟨[.ok .exhausted], (between chain root now pool yielded).journal.passes⟩ := by
  have hstep : p.step now = .ok .exhausted := FlowPass.step_of_still h
  rw [journal_inPass (by rw [move_exhausted hstep]; rfl), rounds_between, hstep]

theorem course_of_failed (h : p.step now = .error .spreadsTooFarApart) :
    Course chain root now pool yielded (inPass chain root now p pool yielded) 1 0 := by
  have hjournal : (inPass chain root now p pool yielded).journal =
      ⟨[.error .spreadsTooFarApart], []⟩ := by
    rw [journal_inPass (by rw [move_failed h]; rfl), journal_of_finished rfl, h]
  exact .of_journal hjournal (.failed (results_of_failed h) (by rw [hjournal]))

theorem course_of_still (h : p.graph.pushFlow.2 = 0) :
    Course chain root now pool yielded (inPass chain root now p pool yielded) 1 0 :=
  .of_journal (journal_of_still h) (.silent (results_of_still h) (by rw [journal_of_still h]))

theorem course_of_more {n k : Nat} (h : p.step now = .ok (.more q))
    (c : Course chain root now pool yielded (inPass chain root now q pool yielded) n k) :
    Course chain root now pool yielded (inPass chain root now p pool yielded) (n + 1) k := by
  have hjournal : (inPass chain root now p pool yielded).journal =
      ⟨.ok (.more q) :: (inPass chain root now q pool yielded).journal.rounds,
        (inPass chain root now q pool yielded).journal.passes⟩ := by
    rw [journal_inPass (by rw [move_more h]; rfl), h]
  have hresults : (inPass chain root now p pool yielded).results =
      (inPass chain root now q pool yielded).results := results_of_more h
  refine ⟨?_, ?_, ?_⟩
  · rw [hjournal]
    exact Nat.succ_le_succ c.rounds_le
  · rw [hjournal]
    exact c.records_le
  · cases c.leaves with
    | failed hq hpasses => exact .failed (hresults.trans hq) (by rw [hjournal, hpasses])
    | silent hq hpasses => exact .silent (hresults.trans hq) (by rw [hjournal, hpasses])
    | found hnew hq hpasses => exact .found hnew (hresults.trans hq) (by rw [hjournal, hpasses])

theorem course_of_found {record : OneToManyMatch} (h : p.step now = .ok (.found record q))
    (hstill : q.graph.pushFlow.2 = 0) :
    Course chain root now pool yielded (inPass chain root now p pool yielded) 2 1 := by
  have hjournal : ∀ after, (inPass chain root now p pool yielded).move.after? =
      some (inPass chain root now q pool after) → (inPass chain root now p pool yielded).journal =
        ⟨[.ok (.found record q), .ok .exhausted],
          (between chain root now pool after).journal.passes⟩ := by
    intro after hmove
    rw [journal_inPass hmove, journal_of_still hstill, h]
  by_cases hknown : record.id ∈ yielded
  · have hjournal := hjournal yielded (by rw [move_known h hknown]; rfl)
    refine .of_journal hjournal (.silent ?_ (by rw [hjournal]))
    rw [results_of_known h hknown, results_of_still hstill]
  · have hjournal := hjournal (record.id :: yielded) (by rw [move_new h hknown]; rfl)
    refine .of_journal hjournal (.found hknown ?_ (by rw [hjournal]))
    rw [results_of_new h hknown, results_of_still hstill]

theorem course_of_withoutMain (s : FlowPass.Sound chain root pool p)
    (hpool : ∀ r ∈ pool, r.order.numItems = 1) (h : p.WithoutMain) {rest : List ResolvedOrder} :
    Course chain root now rest yielded (inPass chain root now p rest yielded) 2 1 := by
  have houtcome := s.outcome hpool now
  generalize hstep : p.step now = outcome at houtcome
  cases houtcome with
  | failed e =>
    obtain rfl : e = .spreadsTooFarApart := s.failsOnly_step e hstep
    exact (course_of_failed hstep).mono (by decide) (by decide)
  | exhausted h => exact (course_of_still h).mono (by decide) (by decide)
  | found record => exact course_of_found hstep s.pushed_afterRound
  | part => exact (course_of_more hstep (course_of_still s.pushed_afterRound)).mono (by decide) (by decide)
  | unpriced =>
    -- The main candidate has gone before, so nothing more flows after the round.
    have hstill : p.afterRound.dropMain.graph.pushFlow.2 = 0 :=
      (s.afterRound.pushed_dropMain_of_withoutMain (s.withoutMain_afterRound h)).trans s.pushed_afterRound
    exact (course_of_more hstep (course_of_still hstill)).mono (by decide) (by decide)

theorem course_of_sound (s : FlowPass.Sound chain root pool p)
    (hpool : ∀ r ∈ pool, r.order.numItems = 1) {rest : List ResolvedOrder} :
    Course chain root now rest yielded (inPass chain root now p rest yielded) 3 1 := by
  have houtcome := s.outcome hpool now
  generalize hstep : p.step now = outcome at houtcome
  cases houtcome with
  | failed e =>
    obtain rfl : e = .spreadsTooFarApart := s.failsOnly_step e hstep
    exact (course_of_failed hstep).mono (by decide) (by decide)
  | exhausted h => exact (course_of_still h).mono (by decide) (by decide)
  | found record => exact (course_of_found hstep s.pushed_afterRound).mono (by decide) (by decide)
  | part => exact (course_of_more hstep (course_of_still s.pushed_afterRound)).mono (by decide) (by decide)
  | unpriced =>
    have u := s.afterRound
    exact course_of_more hstep (course_of_withoutMain u.dropMain hpool u.withoutMain_dropMain)

def idsOf (results : List (Result OneToManyMatch)) : List String :=
  results.filterMap fun r => r.toOption.map (·.id)

/-- The bounds of a search between two passes. -/
structure Bounded (pool : List ResolvedOrder) (yielded : List String) (s : OneToMany) : Prop where
  passes : ∀ log ∈ s.passes, log.rounds.length ≤ 3 ∧ log.records.length ≤ 1
  pools : s.passes.map (·.pool) <+: pool.tails.dropLast
  all : .error .spreadsTooFarApart ∉ s.results → s.passes.map (·.pool) = pool.tails.dropLast
  length_le : s.results.length ≤ pool.length
  nodup : (idsOf s.results).Nodup
  fresh : ∀ id ∈ idsOf s.results, id ∉ yielded

theorem dropLast_tails_cons (r : ResolvedOrder) (pool : List ResolvedOrder) :
    (r :: pool).tails.dropLast = (r :: pool) :: pool.tails.dropLast := by
  rw [List.tails_cons]
  exact List.dropLast_cons_of_ne_nil (by cases pool <;> simp)

theorem pools_cons {log : PassLog} {logs : List PassLog} (hpool : log.pool = r :: pool) :
    (log :: logs).map (·.pool) <+: (r :: pool).tails.dropLast ↔
      logs.map (·.pool) <+: pool.tails.dropLast := by
  rw [List.map_cons, hpool, dropLast_tails_cons, List.cons_prefix_cons]
  exact and_iff_right rfl

theorem bounded_nil : Bounded [] yielded (between chain root now [] yielded) := by
  have hpasses : (between chain root now [] yielded).passes = [] := by
    rw [passes, journal_between_nil]
  have hresults : (between chain root now [] yielded).results = [] := results_of_stop rfl
  refine ⟨?_, ?_, fun _ => ?_, ?_, ?_, ?_⟩
  · rw [hpasses]
    exact fun log h => by cases h
  · rw [hpasses]
    exact List.nil_prefix
  · rw [hpasses]
    rfl
  · rw [hresults]
    exact Nat.le_refl 0
  · rw [hresults]
    exact List.nodup_nil
  · rw [hresults]
    exact fun id h => by cases h

theorem bounded_of_error {s : OneToMany} {passes : List PassLog}
    (hresults : s.results = [.error .spreadsTooFarApart]) (hpasses : s.passes = passes)
    (hrounds : ∀ log ∈ passes, log.rounds.length ≤ 3 ∧ log.records.length ≤ 1)
    (hpools : passes.map (·.pool) <+: (r :: pool).tails.dropLast) :
    Bounded (r :: pool) yielded s := by
  refine ⟨hpasses ▸ hrounds, hpasses ▸ hpools, fun h => ?_, ?_, ?_, ?_⟩
  · rw [hresults] at h
    exact absurd List.mem_cons_self h
  · rw [hresults]
    exact Nat.succ_le_succ (Nat.zero_le _)
  · rw [hresults]
    exact List.nodup_nil
  · rw [hresults]
    exact fun id h => by cases h

theorem Bounded.silent {s t : OneToMany} {log : PassLog} (b : Bounded pool yielded t)
    (hlog : log.rounds.length ≤ 3 ∧ log.records.length ≤ 1) (hpool : log.pool = r :: pool)
    (hpasses : s.passes = log :: t.passes) (hresults : s.results = t.results) :
    Bounded (r :: pool) yielded s := by
  refine ⟨?_, ?_, fun h => ?_, ?_, ?_, ?_⟩
  · rw [hpasses]
    exact List.forall_mem_cons.2 ⟨hlog, b.passes⟩
  · rw [hpasses]
    exact (pools_cons hpool).2 b.pools
  · rw [hresults] at h
    rw [hpasses, List.map_cons, hpool, dropLast_tails_cons, b.all h]
  · rw [hresults]
    exact Nat.le_succ_of_le b.length_le
  · rw [hresults]
    exact b.nodup
  · rw [hresults]
    exact b.fresh

theorem Bounded.found {s t : OneToMany} {log : PassLog} {record : OneToManyMatch}
    (b : Bounded pool (record.id :: yielded) t)
    (hlog : log.rounds.length ≤ 3 ∧ log.records.length ≤ 1) (hpool : log.pool = r :: pool)
    (hpasses : s.passes = log :: t.passes) (hresults : s.results = .ok record :: t.results)
    (hnew : record.id ∉ yielded) : Bounded (r :: pool) yielded s := by
  have hids : idsOf s.results = record.id :: idsOf t.results := by
    rw [hresults]
    rfl
  have hlater : record.id ∉ idsOf t.results := fun h => b.fresh _ h List.mem_cons_self
  refine ⟨?_, ?_, fun h => ?_, ?_, ?_, ?_⟩
  · rw [hpasses]
    exact List.forall_mem_cons.2 ⟨hlog, b.passes⟩
  · rw [hpasses]
    exact (pools_cons hpool).2 b.pools
  · rw [hresults] at h
    have hothers := b.all fun ht => h (List.mem_cons_of_mem _ ht)
    rw [hpasses, List.map_cons, hpool, dropLast_tails_cons, hothers]
  · rw [hresults]
    exact Nat.succ_le_succ b.length_le
  · rw [hids]
    exact List.nodup_cons.2 ⟨hlater, b.nodup⟩
  · rw [hids]
    exact List.forall_mem_cons.2 ⟨hnew, fun id hid h => b.fresh id hid (List.mem_cons_of_mem _ h)⟩

theorem bounded_between (hpool : ∀ r ∈ pool, r.order.numItems = 1) :
    Bounded pool yielded (between chain root now pool yielded) := by
  induction pool generalizing yielded with
  | nil => exact bounded_nil
  | cons r pool ih =>
    have ih : ∀ {yielded}, Bounded pool yielded (between chain root now pool yielded) :=
      ih fun x hx => hpool x (List.mem_cons_of_mem _ hx)
    cases hp : FlowPass.build chain root (r :: pool) with
    | error e =>
      have hunbuilt : ¬ ∃ p, FlowPass.build chain root (r :: pool) = .ok p := by simp [hp]
      have hpasses : (between chain root now (r :: pool) yielded).passes = [] := by
        rw [passes, journal_between_unbuilt hp]
      refine bounded_of_error (results_of_unbuilt hunbuilt) hpasses ?_ List.nil_prefix
      exact fun log h => by cases h
    | ok p =>
      have course : Course chain root now pool yielded (inPass chain root now p pool yielded) 3 1 :=
        course_of_sound (FlowPass.sound_build hp) hpool
      obtain ⟨log, hlogPool, hlog, hpasses⟩ : ∃ log : PassLog, log.pool = r :: pool ∧
          (log.rounds.length ≤ 3 ∧ log.records.length ≤ 1) ∧
          (between chain root now (r :: pool) yielded).passes =
            log :: (inPass chain root now p pool yielded).passes := by
        refine ⟨⟨r :: pool, _⟩, rfl, ⟨course.rounds_le, course.records_le⟩, ?_⟩
        rw [passes, journal_between_built hp]
        rfl
      have hresults : (between chain root now (r :: pool) yielded).results =
          (inPass chain root now p pool yielded).results := results_between_cons hp
      cases course.leaves with
      | failed hend hnone =>
        refine bounded_of_error (hresults.trans hend) (hpasses.trans (congrArg _ hnone)) ?_ ?_
        · exact List.forall_mem_singleton.2 hlog
        · exact (pools_cons hlogPool).2 List.nil_prefix
      | silent hsame hrest =>
        exact ih.silent hlog hlogPool (hpasses.trans (congrArg _ hrest)) (hresults.trans hsame)
      | found hnew hsame hrest =>
        exact ih.found hlog hlogPool (hpasses.trans (congrArg _ hrest)) (hresults.trans hsame) hnew

/-! After the end -/

theorem finished_of_stop {s t : OneToMany} (h : s.move = .stop t) : t.finished = true := by
  have hm := moves_move s
  rw [h] at hm
  cases hm with
  | ended hfinished => exact hfinished
  | emptied => rfl

theorem next_of_none {s t : OneToMany} (h : s.next = (none, t)) : t.next = (none, t) := by
  fun_induction next s with
  | case1 s u hm =>
    obtain rfl : u = t := congrArg Prod.snd h
    exact next_of_stop (move_of_finished (finished_of_stop hm))
  | case2 s r u hm => cases h
  | case3 s u hm ih => exact ih h

/-- Every pass of a search has at most three rounds and finds at most one record. The passes are those
over the parts of the pool that begin with one of its candidates, in their order: all of them, unless
an error ends the search, which is always the one of spreads too far apart. So the search gives at
most one result for each candidate of the pool; it gives no id twice, and nothing more once it has
come to its end. -/
theorem bounded_start (chain : PolicyChain) (root : ResolvedOrder) (candidates : List ResolvedOrder)
    (now : UInt64) :
    let search := start chain root candidates now
    let pool := poolOf root candidates
    (∀ log ∈ search.passes, log.rounds.length ≤ 3 ∧ log.records.length ≤ 1) ∧
    search.passes.map (·.pool) <+: pool.tails.dropLast ∧
    (.error .spreadsTooFarApart ∉ search.results →
      search.passes.map (·.pool) = pool.tails.dropLast ∧ search.passes.length = pool.length) ∧
    search.results.length ≤ pool.length ∧ (idsOf search.results).Nodup ∧
    (∀ e, .error e ∈ search.results → e = .spreadsTooFarApart) ∧
    ∀ s t : OneToMany, s.next = (none, t) → t.next = (none, t) := by
  intro search pool
  have hpool : ∀ r ∈ pool, r.order.numItems = 1 := fun r hr =>
    (isPoolCandidate_iff.1 (mem_poolOf.1 hr).2).1
  have b : Bounded pool [] search := bounded_between hpool
  refine ⟨b.passes, b.pools, fun h => ⟨b.all h, ?_⟩, b.length_le, b.nodup, fun e he => ?_,
    fun _ _ => next_of_none⟩
  · have hlength := congrArg List.length (b.all h)
    simpa using hlength
  · obtain ⟨x, hx, hxe⟩ := List.mem_map.1 he
    exact failsOnly_drain chain root candidates now hx e hxe

theorem bounded_start_bidForTwo :
    let search := start .default bidForTwo asksForTwo 7
    search.passes.map (·.pool) = [asksForTwo, asksForTwo.tail] ∧
      ∃ record, search.results = [.ok record] := by
  intro search
  obtain ⟨record, waiting, hfound⟩ := foundOne_bidForTwo
  have hresults : search.results = [.ok record] := by
    rw [results, hfound]
    rfl
  have hpool : poolOf bidForTwo asksForTwo = asksForTwo :=
    poolOf_eq_self (by decide +kernel) (by decide +kernel)
  obtain ⟨-, -, hall, -⟩ := bounded_start .default bidForTwo asksForTwo 7
  have hnone : .error .spreadsTooFarApart ∉ search.results := by
    rw [hresults]
    simp
  refine ⟨(hall hnone).1.trans ?_, record, hresults⟩
  rw [hpool]
  rfl

def risingAsk (id token : String) : ResolvedOrder :=
  let high : Decimal := ⟨false, 30000000000000000000000000000, 0, by decide, Decimal.scale_zero_le⟩
  askFor id token (.ramp .zero high)

/-- The sum of two such prices is too far from that of the bid: the first call for a result fails, and
the candidate that is left never has its pass. -/
theorem next_fails_risingAsks :
    let asks := [risingAsk "a" "1", risingAsk "b" "2"]
    let search := start .default (steepBid ["1", "2"]) asks 0
    (∃ t, search.next = (some (.error .spreadsTooFarApart), t)) ∧ search.passes.length = 1 ∧
      (poolOf (steepBid ["1", "2"]) asks).length = 2 := by
  intro asks search
  have hpool : poolOf (steepBid ["1", "2"]) asks = asks :=
    poolOf_eq_self (by decide +kernel) (by decide +kernel)
  obtain ⟨p, hp, hstep⟩ : ∃ p, FlowPass.build .default (steepBid ["1", "2"]) asks = .ok p ∧
      p.step 0 = .error .spreadsTooFarApart := ⟨_, rfl, rfl⟩
  have hsearch : search = between .default (steepBid ["1", "2"]) 0 asks [] := by
    show start _ _ _ _ = _
    rw [start, hpool]
    rfl
  obtain ⟨t, hfinished, hfailed⟩ : ∃ t, t.finished = true ∧
      (inPass .default (steepBid ["1", "2"]) 0 p [risingAsk "b" "2"] []).move =
        .give (.error .spreadsTooFarApart) t := ⟨_, rfl, move_failed hstep⟩
  rw [hsearch]
  refine ⟨⟨t, (next_of_go (move_built hp)).trans (next_of_give hfailed)⟩, ?_, by rw [hpool]; rfl⟩
  rw [passes, journal_between_built hp, journal_inPass (by rw [hfailed]; rfl),
    journal_of_finished hfinished]
  rfl

end OneToMany

end OrderBook

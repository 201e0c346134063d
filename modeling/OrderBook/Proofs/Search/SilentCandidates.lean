import OrderBook.Proofs.Search.Building
import OrderBook.Proofs.Search.Embedding

/-!
Candidates that agree with no item of the root. They have no lanes, so a pass that starts from one
goes through a single round, which the next pass goes through again. A record that it gives is found
at the same place without it, and is passed over when it is found once more. So a search finds the
same records in the same order when such candidates are left out of its pool.
-/

namespace OrderBook

/-- That no item of an order agrees with an item of the root. -/
def Silent (chain : PolicyChain) (root r : ResolvedOrder) : Prop :=
  ∀ a ∈ root.items, ∀ b ∈ r.items, chain.agrees a b = false

namespace FlowPass

variable {chain : PolicyChain} {root : ResolvedOrder} {pool small : List ResolvedOrder}
  {f : Nat → Nat} {r : ResolvedOrder}

/-! Lanes at the start -/

theorem orderLanes_of_silent (h : Silent chain root r) (j : Nat) : orderLanes chain root j r = [] := by
  refine List.flatMap_eq_nil_iff.2 fun b hb => List.filterMap_eq_nil_iff.2 fun a ha => ?_
  have hagree := h a.1 (List.fst_mem_of_mem_zipIdx ha) b.1 (List.fst_mem_of_mem_zipIdx hb)
  simp only [newLane?, hagree, Bool.false_and, Bool.false_eq_true, if_false]

theorem orderLanes_rename (f : Nat → Nat) (j : Nat) (r : ResolvedOrder) :
    (orderLanes chain root j r).map (Lane.rename f) = orderLanes chain root (f j) r := by
  rw [orderLanes, List.map_flatMap]
  refine List.flatMap_congr fun b _ => ?_
  rw [List.map_filterMap]
  refine List.filterMap_congr fun a _ => ?_
  simp only [newLane?]
  split
  · rfl
  · rfl

theorem builtLanes_cons (n : Nat) (r : ResolvedOrder) (pool : List ResolvedOrder) :
    builtLanes chain root n (r :: pool) =
      orderLanes chain root n r ++ builtLanes chain root (n + 1) pool := by
  rw [builtLanes, List.zipIdx_cons, List.flatMap_cons]
  rfl

theorem builtLanes_succ (n : Nat) (pool : List ResolvedOrder) :
    builtLanes chain root (n + 1) pool =
      (builtLanes chain root n pool).map (Lane.rename (· + 1)) := by
  induction pool generalizing n with
  | nil => rfl
  | cons r pool ih =>
    rw [builtLanes_cons, builtLanes_cons, List.map_append, orderLanes_rename, ih]

/-- A pool around a smaller one, where the candidates left out have no lanes. -/
structure Covers (chain : PolicyChain) (root : ResolvedOrder) (f : Nat → Nat)
    (pool small : List ResolvedOrder) : Prop where
  embeds : Embeds f pool small
  lanes : builtLanes chain root 0 pool = (builtLanes chain root 0 small).map (Lane.rename f)

theorem Covers.nil : Covers chain root id [] [] := ⟨⟨strictMono_id, fun _ => rfl⟩, rfl⟩

def keepHead (f : Nat → Nat) : Nat → Nat
  | 0 => 0
  | j + 1 => f j + 1

def skipHead (f : Nat → Nat) (j : Nat) : Nat := f j + 1

theorem Covers.keep (c : Covers chain root f pool small) (r : ResolvedOrder) :
    Covers chain root (keepHead f) (r :: pool) (r :: small) := by
  refine ⟨⟨?_, ?_⟩, ?_⟩
  · intro i j hij
    cases i with
    | zero =>
      cases j with
      | zero => omega
      | succ j => exact Nat.succ_pos _
    | succ i =>
      cases j with
      | zero => omega
      | succ j => exact Nat.succ_lt_succ (c.embeds.ascending (Nat.lt_of_succ_lt_succ hij))
  · intro j
    cases j with
    | zero => rfl
    | succ j => exact c.embeds.getElem? j
  · rw [builtLanes_cons, builtLanes_cons, List.map_append, orderLanes_rename, builtLanes_succ,
      builtLanes_succ, c.lanes, List.map_map, List.map_map]
    rfl

theorem Covers.skip (c : Covers chain root f pool small) (h : Silent chain root r) :
    Covers chain root (skipHead f) (r :: pool) small := by
  refine ⟨⟨?_, ?_⟩, ?_⟩
  · exact fun i j hij => Nat.succ_lt_succ (c.embeds.ascending hij)
  · exact fun j => c.embeds.getElem? j
  · rw [builtLanes_cons, orderLanes_of_silent h, List.nil_append, builtLanes_succ, c.lanes,
      List.map_map]
    rfl

theorem covers_filter (keep : ResolvedOrder → Bool)
    (h : ∀ r ∈ pool, keep r = false → Silent chain root r) :
    ∃ f, Covers chain root f pool (pool.filter keep) := by
  induction pool with
  | nil => exact ⟨id, .nil⟩
  | cons r pool ih =>
    obtain ⟨f, c⟩ := ih fun x hx => h x (List.mem_cons_of_mem _ hx)
    cases hr : keep r with
    | true =>
      rw [List.filter_cons_of_pos hr]
      exact ⟨keepHead f, c.keep r⟩
    | false =>
      rw [List.filter_cons_of_neg (by simp [hr])]
      exact ⟨skipHead f, c.skip (h r List.mem_cons_self hr)⟩

theorem Covers.twins (c : Covers chain root f pool small) {p q : FlowPass}
    (hp : build chain root pool = .ok p) (hq : build chain root small = .ok q) :
    Twins chain root f pool small p q := by
  refine ⟨c.embeds, sound_build hp, sound_build hq, ?_⟩
  rw [lanes_build hp, lanes_build hq, c.lanes]

end FlowPass

namespace OneToMany

section

variable (chain : PolicyChain) (root : ResolvedOrder) (now : UInt64)

def between (pool : List ResolvedOrder) (yielded : List String) : OneToMany where
  chain := chain
  root := root
  now := now
  pool := pool
  yielded := yielded

def inPass (p : FlowPass) (pool : List ResolvedOrder) (yielded : List String) : OneToMany where
  chain := chain
  root := root
  now := now
  pool := pool
  pass := some p
  yielded := yielded

end

variable {chain : PolicyChain} {root r : ResolvedOrder} {now : UInt64}
  {pool rest small : List ResolvedOrder} {yielded : List String} {p q : FlowPass}
  {ms ns : List OneToManyMatch} {f : Nat → Nat}

/-! Moves -/

theorem move_unbuilt {e : MatchError} (h : FlowPass.build chain root (r :: pool) = .error e) :
    (between chain root now (r :: pool) yielded).move =
      .give (.error e) { between chain root now (r :: pool) yielded with finished := true } := by
  simp only [move, between, h]
  rfl

theorem move_built (h : FlowPass.build chain root (r :: pool) = .ok p) :
    (between chain root now (r :: pool) yielded).move =
      .go (inPass chain root now p pool yielded) := by
  simp only [move, between, h]
  rfl

theorem move_failed {e : MatchError} (h : p.step now = .error e) :
    (inPass chain root now p pool yielded).move =
      .give (.error e) { inPass chain root now p pool yielded with finished := true } := by
  simp only [move, movePass, inPass, h]
  rfl

theorem move_exhausted (h : p.step now = .ok .exhausted) :
    (inPass chain root now p pool yielded).move = .go (between chain root now pool yielded) := by
  simp only [move, movePass, inPass, h]
  rfl

theorem move_more (h : p.step now = .ok (.more q)) :
    (inPass chain root now p pool yielded).move = .go (inPass chain root now q pool yielded) := by
  simp only [move, movePass, inPass, h]
  rfl

theorem move_known {record : OneToManyMatch} (h : p.step now = .ok (.found record q))
    (hknown : record.id ∈ yielded) :
    (inPass chain root now p pool yielded).move = .go (inPass chain root now q pool yielded) := by
  simp only [move, movePass, inPass, h, List.contains_iff_mem.2 hknown]
  rfl

theorem move_new {record : OneToManyMatch} (h : p.step now = .ok (.found record q))
    (hnew : record.id ∉ yielded) :
    (inPass chain root now p pool yielded).move =
      .give (.ok record) (inPass chain root now q pool (record.id :: yielded)) := by
  have hcontains : yielded.contains record.id = false := by simpa using hnew
  simp only [move, movePass, inPass, h, hcontains]
  rfl

/-! What is still given -/

theorem results_of_finished {s : OneToMany} (h : s.finished = true) : s.results = [] :=
  results_of_stop (move_of_finished h)

theorem build_nil : ∃ q, FlowPass.build chain root [] = .ok q := ⟨_, rfl⟩

theorem results_of_unbuilt (h : ¬ ∃ p, FlowPass.build chain root pool = .ok p) :
    (between chain root now pool yielded).results = [.error .spreadsTooFarApart] := by
  cases pool with
  | nil => exact absurd build_nil h
  | cons r pool =>
    cases hp : FlowPass.build chain root (r :: pool) with
    | ok p => exact absurd ⟨p, hp⟩ h
    | error e =>
      obtain rfl : e = .spreadsTooFarApart := FlowPass.failsOnly_build _ _ _ _ hp
      rw [results_of_give (move_unbuilt hp), results_of_finished rfl]

theorem results_between_cons (hp : FlowPass.build chain root (r :: pool) = .ok p) :
    (between chain root now (r :: pool) yielded).results =
      (inPass chain root now p pool yielded).results :=
  results_of_go (move_built hp)

theorem results_of_failed {e : MatchError} (h : p.step now = .error e) :
    (inPass chain root now p pool yielded).results = [.error e] := by
  rw [results_of_give (move_failed h), results_of_finished rfl]

theorem results_of_exhausted (h : p.step now = .ok .exhausted) :
    (inPass chain root now p pool yielded).results = (between chain root now pool yielded).results :=
  results_of_go (move_exhausted h)

theorem results_of_more (h : p.step now = .ok (.more q)) :
    (inPass chain root now p pool yielded).results = (inPass chain root now q pool yielded).results :=
  results_of_go (move_more h)

theorem results_of_known {record : OneToManyMatch} (h : p.step now = .ok (.found record q))
    (hknown : record.id ∈ yielded) :
    (inPass chain root now p pool yielded).results = (inPass chain root now q pool yielded).results :=
  results_of_go (move_known h hknown)

theorem results_of_new {record : OneToManyMatch} (h : p.step now = .ok (.found record q))
    (hnew : record.id ∉ yielded) :
    (inPass chain root now p pool yielded).results =
      .ok record :: (inPass chain root now q pool (record.id :: yielded)).results :=
  results_of_give (move_new h hnew)

theorem results_of_still (h : p.graph.pushFlow.2 = 0) :
    (inPass chain root now p pool yielded).results = (between chain root now pool yielded).results :=
  results_of_exhausted (FlowPass.step_of_still h)

/-- Passes with the same main candidate give the same, if what comes after them gives the same. -/
theorem results_inPass (t : FlowPass.Twins chain root f pool small p q) (hf : f 0 = 0)
    (hpool : ∀ r ∈ pool, r.order.numItems = 1) {after : List ResolvedOrder}
    {afterSmall : List ResolvedOrder}
    (hafter : ∀ yielded, (between chain root now after yielded).results =
      (between chain root now afterSmall yielded).results) :
    (inPass chain root now p after yielded).results =
      (inPass chain root now q afterSmall yielded).results := by
  induction hslack : p.graph.slack using Nat.strong_induction_on generalizing p q yielded with
  | _ slack ih =>
    subst hslack
    have halike := t.step hf hpool now
    generalize hp : p.step now = left at halike
    generalize hq : q.step now = right at halike
    cases halike with
    | failed e => rw [results_of_failed hp, results_of_failed hq]
    | exhausted =>
      rw [results_of_exhausted hp, results_of_exhausted hq]
      exact hafter yielded
    | more u =>
      rw [results_of_more hp, results_of_more hq]
      exact ih _ (FlowPass.slack_step hp rfl) u rfl
    | found record u =>
      have hless := FlowPass.slack_step hp rfl
      by_cases hknown : record.id ∈ yielded
      · rw [results_of_known hp hknown, results_of_known hq hknown]
        exact ih _ hless u rfl
      · rw [results_of_new hp hknown, results_of_new hq hknown]
        exact congrArg _ (ih _ hless u rfl)

theorem step_build_nil (hq : FlowPass.build chain root [] = .ok q) : q.step now = .ok .exhausted := by
  have hpushed : q.graph.pushFlow.2 = 0 := by
    rw [(FlowPass.sound_build hq).lanes_afterRound.2, FlowPass.lanes_build hq]
    rfl
  rw [FlowPass.step, if_pos hpushed]

theorem results_between_of_step (hq : FlowPass.build chain root small = .ok q)
    (h : q.step now ≠ .ok .exhausted) :
    ∃ rest, ∀ yielded, (between chain root now small yielded).results =
      (inPass chain root now q rest yielded).results := by
  cases small with
  | nil => exact absurd (step_build_nil hq) h
  | cons x small => exact ⟨small, fun _ => results_between_cons hq⟩

/-- A pass that starts from a candidate without lanes changes nothing. -/
theorem results_skip (c : FlowPass.Covers chain root f pool small) (h : Silent chain root r)
    (hpool : ∀ x ∈ r :: pool, x.order.numItems = 1)
    (hp : FlowPass.build chain root (r :: pool) = .ok p) (hq : FlowPass.build chain root small = .ok q)
    (hafter : ∀ yielded, (between chain root now pool yielded).results =
      (between chain root now small yielded).results) :
    (between chain root now (r :: pool) yielded).results =
      (between chain root now small yielded).results := by
  have twins := (c.skip h).twins hp hq
  have hidles := twins.idles (fun j => Nat.succ_ne_zero (f j)) hpool now
  rw [results_between_cons hp]
  generalize hstep : p.step now = left at hidles
  cases hidles with
  | failed e =>
    have hfailed := twins.step_failed hpool hstep
    obtain ⟨rest, hrest⟩ := results_between_of_step hq (by rw [hfailed]; simp)
    rw [results_of_failed hstep, hrest, results_of_failed hfailed]
  | exhausted =>
    rw [results_of_exhausted hstep]
    exact hafter yielded
  | more hstill =>
    rw [results_of_more hstep, results_of_still hstill]
    exact hafter yielded
  | found record hstill hfound =>
    by_cases hknown : record.id ∈ yielded
    · rw [results_of_known hstep hknown, results_of_still hstill]
      exact hafter yielded
    · -- The next pass finds the record as well; the search that found it before passes over it.
      obtain ⟨rest, hrest⟩ := results_between_of_step hq (by rw [hfound]; simp)
      rw [results_of_new hstep hknown, results_of_still hstill, hafter, hrest, hrest,
        results_of_new hfound hknown, results_of_known hfound List.mem_cons_self]

theorem build_filter_isOk (keep : ResolvedOrder → Bool)
    (hdecided : ∀ r ∈ pool, keep r = false → Decided chain root r) :
    (∃ q, FlowPass.build chain root (pool.filter keep) = .ok q) ↔
      ∃ p, FlowPass.build chain root pool = .ok p := by
  rw [FlowPass.build_isOk, FlowPass.build_isOk]
  constructor
  · intro hkept r hr
    cases hk : keep r with
    | true => exact hkept r (List.mem_filter.2 ⟨hr, hk⟩)
    | false => exact hdecided r hr hk
  · exact fun hall r hr => hall r (List.mem_of_mem_filter hr)

theorem results_filter (keep : ResolvedOrder → Bool)
    (hsilent : ∀ r ∈ pool, keep r = false → Silent chain root r)
    (hdecided : ∀ r ∈ pool, keep r = false → Decided chain root r)
    (hpool : ∀ r ∈ pool, r.order.numItems = 1) :
    (between chain root now pool yielded).results =
      (between chain root now (pool.filter keep) yielded).results := by
  induction pool generalizing yielded with
  | nil => rfl
  | cons r pool ih =>
    have hbuild := build_filter_isOk keep hdecided
    obtain ⟨p, hp⟩ | hunbuilt := em (∃ p, FlowPass.build chain root (r :: pool) = .ok p)
    · obtain ⟨q, hq⟩ := hbuild.2 ⟨p, hp⟩
      have hrest : ∀ x ∈ pool, keep x = false → Silent chain root x :=
        fun x hx => hsilent x (List.mem_cons_of_mem _ hx)
      have hafter : ∀ yielded, (between chain root now pool yielded).results =
          (between chain root now (pool.filter keep) yielded).results := fun _ =>
        ih hrest (fun x hx => hdecided x (List.mem_cons_of_mem _ hx))
          fun x hx => hpool x (List.mem_cons_of_mem _ hx)
      obtain ⟨f, c⟩ := FlowPass.covers_filter keep hrest
      cases hr : keep r with
      | true =>
        rw [List.filter_cons_of_pos hr] at hq ⊢
        rw [results_between_cons hp, results_between_cons hq]
        exact results_inPass ((c.keep r).twins hp hq) rfl hpool hafter
      | false =>
        rw [List.filter_cons_of_neg (by simp [hr])] at hq ⊢
        exact results_skip c (hsilent r List.mem_cons_self hr) hpool hp hq hafter
    · rw [results_of_unbuilt hunbuilt, results_of_unbuilt (mt hbuild.1 hunbuilt)]

theorem build_of_records (h : (between chain root now pool yielded).records = .ok ms) :
    ∃ p, FlowPass.build chain root pool = .ok p := by
  by_contra hunbuilt
  rw [records_eq, results_of_unbuilt hunbuilt] at h
  cases h

theorem records_filter (keep : ResolvedOrder → Bool)
    (hsilent : ∀ r ∈ pool, keep r = false → Silent chain root r)
    (hpool : ∀ r ∈ pool, r.order.numItems = 1)
    (hms : (between chain root now pool yielded).records = .ok ms)
    (hns : (between chain root now (pool.filter keep) yielded).records = .ok ns) : ms = ns := by
  have hdecided := FlowPass.build_isOk.1 (build_of_records hms)
  rw [records_eq, results_filter keep hsilent (fun r hr _ => hdecided r hr) hpool, ← records_eq] at hms
  exact Except.ok.inj (hms.symm.trans hns)

end OneToMany

end OrderBook

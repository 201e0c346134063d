import OrderBook.Proofs.Search.FirstCome
import OrderBook.Proofs.Search.OrderOfService
import OrderBook.Proofs.Search.Passes

/-!
Oldest candidates win. Records come from two states of a pass only: after the first round, and after
the round that follows when the main candidate is dropped. In both everybody has had a turn, so who is
left without a unit waits for items whose units all went to older candidates.
-/

namespace OrderBook

-- The zero of sums is the literal.
attribute [local instance (high)] Zero.ofOfNat0

variable {chain : PolicyChain} {root r : ResolvedOrder} {pool : List ResolvedOrder} {n j : Nat}
  {q : Queue} {now : UInt64}

namespace FlowPass

variable {p : FlowPass}

/-- Where a candidate that was not dropped has got nothing, each item of the root that was linked to it
when the pass was built is used up, and all of its units go to candidates in front of that one. -/
def OldestFirst (root : ResolvedOrder) (pool : List ResolvedOrder) (built p : FlowPass) (dropped : Nat)
    (links : List UnitLink) : Prop :=
  ∀ j, dropped ≤ j → j < pool.length → j ∉ p.engaged →
    ∀ i a, root.items[i]? = some a → built.links i j = true →
      links.countP (·.item = i) = a.maxContribution.toNat ∧
        ∀ l ∈ links, l.item = i → ∃ k, p.engaged[l.chosen]? = some k ∧ k < j

namespace Follows

theorem waits (f : Follows chain root pool n q p) (hr : pool[n + j]? = some r)
    (hj : n + j ∉ p.engaged) : q[j]? = some (r, none) := by
  rw [← List.getElem?_drop, f.stands.drop, List.getElem?_map] at hr
  obtain ⟨⟨s, take⟩, hget, hs⟩ := Option.map_eq_some_iff.1 hr
  obtain rfl : s = r := hs
  cases take with
  | none => exact hget
  | some t =>
    rw [f.engaged, mem_takers] at hj
    exact absurd ⟨j, s, t, rfl, hget⟩ hj

theorem exists_taker (f : Follows chain root pool n q p) {l : UnitLink} (hl : l ∈ p.unitLinks) :
    ∃ k x u, p.engaged[l.chosen]? = some (n + k) ∧ q[k]? = some x ∧ x.2 = some u ∧
      u.item = l.item := by
  obtain ⟨lane, hlane, rfl⟩ := List.mem_map.1 hl
  obtain ⟨hlane, hflow⟩ := List.mem_filter.1 hlane
  have hflow : 0 < lane.flow := of_decide_eq_true hflow
  have hengaged : lane.candidate ∈ p.engaged := f.sound.engaged_iff.2 ⟨lane, hlane, rfl, hflow⟩
  have hidx : p.engaged[p.engaged.idxOf lane.candidate]? = some lane.candidate := by
    rw [List.getElem?_eq_getElem (List.idxOf_lt_length_of_mem hengaged), List.getElem_idxOf]
  rw [f.lanes] at hlane
  obtain ⟨k, x, u, hk, -, rfl⟩ := mem_queueLanes.1 hlane
  refine ⟨k, x, u, hidx, hk, ?_, rfl⟩
  by_contra hne
  simp [Take.lane, hne] at hflow

end Follows

theorem Follows.oldestFirst {built : FlowPass} {record : OneToManyMatch}
    (f : Follows chain root pool n q p) (hroot : root.isEligibleRoot = true)
    (hp : build chain root pool = .ok built) (h : q.Ordered chain root) (g : p.Gives now record) :
    OldestFirst root pool built p n p.unitLinks := by
  intro j hn _ hidle i a ha hlinked
  have hfill := f.sound.fillsExactly f.stands.single g hroot
  refine ⟨hfill.used ha, fun l hl hitem => ?_⟩
  obtain ⟨j, rfl⟩ := Nat.exists_eq_add_of_le hn
  obtain ⟨r, hr, hmay⟩ := (links_build hroot f.stands.single hp).1 hlinked
  obtain ⟨t, ht, rfl⟩ := mayTake_iff.1 hmay
  obtain ⟨k, x, u, hchosen, hk, hu, hsame⟩ := f.exists_taker hl
  have hlt := h.lt_of_waits (f.waits hr hidle) ht hk hu (hsame.trans hitem)
  exact ⟨n + k, hchosen, Nat.add_lt_add_left hlt n⟩

/-! The states of a pass that a search goes through -/

/-- What becomes of a pass during a search: once nothing flows any more, it is spent. -/
inductive Stage (built : FlowPass) : FlowPass → Prop
  | first : Stage built built
  | others : Stage built built.afterRound.dropMain
  | spent {p : FlowPass} : p.graph.pushFlow.2 = 0 → Stage built p

theorem Sound.still_or_dropMain {p q : FlowPass} {s : Step} (h : Sound chain root pool p)
    (hpool : ∀ r ∈ pool, r.order.numItems = 1) (hs : p.step now = .ok s) (hq : s.pass? = some q) :
    q.graph.pushFlow.2 = 0 ∨ q = p.afterRound.dropMain := by
  have houtcome := h.outcome hpool now
  rw [hs] at houtcome
  cases houtcome with
  | exhausted => cases hq
  | found record =>
    cases hq
    exact .inl h.pushed_afterRound
  | part =>
    cases hq
    exact .inl h.pushed_afterRound
  | unpriced =>
    cases hq
    exact .inr rfl

theorem Stage.step {built p q : FlowPass} {s : Step} (stage : Stage built p)
    (hb : Sound chain root pool built) (hpool : ∀ r ∈ pool, r.order.numItems = 1)
    (hs : p.step now = .ok s) (hq : s.pass? = some q) : Stage built q := by
  cases stage with
  | first =>
    rcases hb.still_or_dropMain hpool hs hq with h | rfl
    · exact .spent h
    · exact .others
  | others =>
    have hothers := hb.afterRound.dropMain
    rcases hothers.still_or_dropMain hpool hs hq with h | rfl
    · exact .spent h
    · -- The main candidate has gone before, so nothing more flows after the round.
      have hgone := hothers.withoutMain_afterRound hb.afterRound.withoutMain_dropMain
      refine .spent ((hothers.afterRound.pushed_dropMain_of_withoutMain hgone).trans ?_)
      exact hothers.pushed_afterRound
  | spent h =>
    rw [step_of_still h] at hs
    cases hs
    cases hq

end FlowPass

namespace OneToMany

variable {candidates : List ResolvedOrder} {record : OneToManyMatch} {waiting : Nat}

theorem single_of_suffix {suffix : List ResolvedOrder} (h : suffix <:+ poolOf root candidates) :
    ∀ r ∈ suffix, r.order.numItems = 1 := fun _ hr =>
  (isPoolCandidate_iff.1 (mem_poolOf.1 (h.subset hr)).2).1

theorem stage_of_reaches {s : OneToMany} {p : FlowPass}
    (h : Reaches (start chain root candidates now) s) (hp : s.pass = some p) :
    ∃ oldest rest built, oldest :: rest <:+ poolOf root candidates ∧
      FlowPass.build chain root (oldest :: rest) = .ok built ∧ FlowPass.Stage built p := by
  induction h generalizing p with
  | start => cases hp
  | move h hmove ih =>
    have hruns := (runs_start chain root candidates now).reaches h
    obtain hsame | ⟨oldest, rest, hpool, hbuilt⟩ | ⟨q, step, hpass, hstep, hnext⟩ :=
      pass_of_move hmove hp
    · exact ih hsame
    · rw [hruns.sameChain, hruns.sameRoot] at hbuilt
      exact ⟨oldest, rest, p, hpool ▸ hruns.suffix, hbuilt, .first⟩
    · obtain ⟨oldest, rest, built, hsuffix, hbuilt, stage⟩ := ih hpass
      have hsound := FlowPass.sound_build hbuilt
      exact ⟨oldest, rest, built, hsuffix, hbuilt,
        stage.step hsound (single_of_suffix hsuffix) hstep hnext⟩

/-- A record comes from the first round of a pass or from the round after the main candidate has
been dropped. -/
theorem given_after_round (h : (.ok record, waiting) ∈ (start chain root candidates now).drain.1) :
    ∃ oldest rest built p, oldest :: rest <:+ poolOf root candidates ∧
      FlowPass.build chain root (oldest :: rest) = .ok built ∧
      (p = built ∨ p = built.afterRound.dropMain) ∧ p.afterRound.Gives now record := by
  obtain ⟨s, t, hreach, hgive, -⟩ := reaches_drain h
  have hnow := ((runs_start chain root candidates now).reaches hreach).sameNow
  have hm := moves_move s
  rw [hgive] at hm
  cases hm with
  | found hp hstep _ =>
    rw [hnow] at hstep
    obtain ⟨oldest, rest, built, hsuffix, hbuilt, stage⟩ := stage_of_reaches hreach hp
    have hgives := (FlowPass.step_eq_found hstep).2
    refine ⟨oldest, rest, built, _, hsuffix, hbuilt, ?_, hgives⟩
    cases stage with
    | first => exact .inl rfl
    | others => exact .inr rfl
    | spent hstill =>
      rw [FlowPass.step_of_still hstill] at hstep
      cases hstep

/-- Oldest candidates win. A record comes from a pass over the pool from some candidate on, which may
have been dropped; and whoever else of it is left out was linked only to items of which all units went
to candidates in front of it. -/
theorem oldest_first (chain : PolicyChain) (root : ResolvedOrder) (candidates : List ResolvedOrder)
    (now : UInt64) (hroot : root.isEligibleRoot = true)
    (h : (.ok record, waiting) ∈ (start chain root candidates now).drain.1) :
    ∃ oldest rest built p dropped links,
      oldest :: rest <:+ poolOf root candidates ∧
      (oldest :: rest).Pairwise (fun a b => isOlder a b = true) ∧
      FlowPass.build chain root (oldest :: rest) = .ok built ∧
      (dropped = 0 ∧ p = built.afterRound ∨
        dropped = 1 ∧ p = built.afterRound.dropMain.afterRound) ∧
      p.Gives now record ∧ record.FillsExactly chain root (p.chosenFrom (oldest :: rest)) links ∧
      (∀ j ∈ p.engaged, dropped ≤ j) ∧
      FlowPass.OldestFirst root (oldest :: rest) built p dropped links := by
  obtain ⟨oldest, rest, built, p, hsuffix, hbuilt, hp, hgives⟩ := given_after_round h
  have hsingle := single_of_suffix hsuffix
  have hage := (ascending_poolOf root candidates).sublist hsuffix.sublist
  have f := FlowPass.follows_build hroot hsingle hbuilt
  have g := (f.afterRound hroot).1
  have hsettled : Queue.Settled chain root (serveAll chain root (oldest :: rest)) := .serveAll _
  rcases hp with rfl | rfl
  · refine ⟨oldest, rest, p, p.afterRound, 0, _, hsuffix, hage, hbuilt, .inl ⟨rfl, rfl⟩, hgives,
      g.sound.fillsExactly hsingle hgives hroot, fun j _ => Nat.zero_le j, ?_⟩
    exact g.oldestFirst hroot hbuilt hsettled.ordered hgives
  · obtain ⟨x, others, hqueue⟩ := exists_cons_serveAll chain root oldest rest
    rw [← serveAll, hqueue] at g
    have k := (g.dropMain.afterRound hroot).1
    have hothers : Queue.Settled chain root (serve chain root [] others) := by
      rw [hqueue] at hsettled
      exact .serve hsettled.fair.tail hsettled.ordered.tail
    refine ⟨oldest, rest, built, _, 1, _, hsuffix, hage, hbuilt, .inr ⟨rfl, rfl⟩, hgives,
      k.sound.fillsExactly hsingle hgives hroot, fun j hj => ?_, ?_⟩
    · rw [k.engaged] at hj
      exact le_of_mem_takers hj
    · exact k.oldestFirst hroot hbuilt hothers.ordered hgives

def lapsedFirst : List ResolvedOrder :=
  [askUntil 5 "a" (some "1"), askUntil 100 "b" (some "1"), askUntil 100 "c" (some "2"),
    askUntil 100 "d" (some "1")]

/-- The oldest ask is dropped, and its token comes from the second ask, not from the last one. -/
theorem oldest_first_lapsedFirst : bidForTwo.isEligibleRoot = true ∧ ∃ record waiting,
    (.ok record, waiting) ∈ (start .default bidForTwo lapsedFirst 7).drain.1 ∧
      record.opposingOrders.map (·.id) = ["b", "c"] ∧
      ∃ oldest rest built p dropped links, oldest :: rest <:+ poolOf bidForTwo lapsedFirst ∧
        FlowPass.build .default bidForTwo (oldest :: rest) = .ok built ∧
        record.FillsExactly .default bidForTwo (p.chosenFrom (oldest :: rest)) links ∧
        FlowPass.OldestFirst bidForTwo (oldest :: rest) built p dropped links := by
  have hroot : bidForTwo.isEligibleRoot = true := by decide +kernel
  have hpool : poolOf bidForTwo lapsedFirst = lapsedFirst :=
    poolOf_eq_self (by decide +kernel) (by decide +kernel)
  obtain ⟨p, q, r, record, hp, hdropped, hfound, hids⟩ : ∃ p q r record,
      FlowPass.build .default bidForTwo lapsedFirst = .ok p ∧ p.step 7 = .ok (.more q) ∧
        q.step 7 = .ok (.found record r) ∧ record.opposingOrders.map (·.id) = ["b", "c"] :=
    ⟨_, _, _, _, rfl, rfl, rfl, rfl⟩
  have hstart : start .default bidForTwo lapsedFirst 7 = between .default bidForTwo 7 lapsedFirst [] := by
    rw [start, hpool]
    rfl
  have hnext := (next_of_go (move_built hp)).trans ((next_of_go (move_more hdropped)).trans
    (next_of_give (move_new hfound List.not_mem_nil)))
  have hmem := mem_drain_of_next (hstart ▸ hnext)
  obtain ⟨oldest, rest, built, p, dropped, links, hsuffix, -, hbuilt, -, -, hfill, -, hwins⟩ :=
    oldest_first .default bidForTwo lapsedFirst 7 hroot hmem
  exact ⟨hroot, record, _, hmem, hids, oldest, rest, built, p, dropped, links, hsuffix, hbuilt, hfill,
    hwins⟩

end OneToMany

end OrderBook

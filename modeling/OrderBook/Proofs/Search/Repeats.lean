import OrderBook.Proofs.Record.Ids
import OrderBook.Proofs.Search.Leftovers
import OrderBook.Proofs.Search.Passes

/-!
Records that are found more than once. A one-to-many search passes over a record if it has given one
with the same id, so of the records that its passes find it gives the first one of each id. Where the
ids of the orders have no colons, that is the first one of each set of orders; where they have, two
sets may share an id, and the search may lose a record.
-/

namespace OrderBook

section FirstOccurrences

variable {α : Type} {r r' : α → α → Bool}

theorem eraseDupsBy_sublist (r : α → α → Bool) (l : List α) : (l.eraseDupsBy r).Sublist l := by
  induction hn : l.length using Nat.strong_induction_on generalizing l with
  | _ n ih =>
    subst hn
    cases l with
    | nil => exact List.Sublist.refl _
    | cons a l =>
      rw [List.eraseDupsBy_cons]
      have hless : (l.filter fun b => r b a = false).length < (a :: l).length :=
        Nat.lt_succ_of_le (List.length_filter_le _ _)
      exact ((ih _ hless _ rfl).trans List.filter_sublist).cons_cons a

theorem eraseDupsBy_congr {l : List α} (h : ∀ a ∈ l, ∀ b ∈ l, r a b = r' a b) :
    l.eraseDupsBy r = l.eraseDupsBy r' := by
  induction hn : l.length using Nat.strong_induction_on generalizing l with
  | _ n ih =>
    subst hn
    cases l with
    | nil => rfl
    | cons a l =>
      have hrest : l.filter (fun b => r b a = false) = l.filter fun b => r' b a = false :=
        List.filter_congr fun b hb => by rw [h b (List.mem_cons_of_mem _ hb) a List.mem_cons_self]
      have hless : (l.filter fun b => r' b a = false).length < (a :: l).length :=
        Nat.lt_succ_of_le (List.length_filter_le _ _)
      rw [List.eraseDupsBy_cons, List.eraseDupsBy_cons, hrest]
      refine congrArg (a :: ·) (ih _ hless (fun b hb c hc => ?_) rfl)
      exact h b (List.mem_cons_of_mem _ (List.mem_of_mem_filter hb)) c
        (List.mem_cons_of_mem _ (List.mem_of_mem_filter hc))

end FirstOccurrences

def OneToManyMatch.orderIds (m : OneToManyMatch) : List String :=
  m.order.id :: m.opposingOrders.map (·.id)

def OrderMatch.orderIds (m : OrderMatch) : List String := m.order.id :: m.opposingOrders.map (·.id)

namespace OneToMany

def Journal.records (j : Journal) : List OneToManyMatch :=
  j.rounds.filterMap foundBy? ++ j.passes.flatMap (·.records)

/-- The records that the rounds and passes of a search find, whether it gives them or not. -/
def finds (s : OneToMany) : List OneToManyMatch := s.journal.records

def gives (s : OneToMany) : List OneToManyMatch := s.results.filterMap Except.toOption

def findsNext? (s : OneToMany) : Option OneToManyMatch := s.pass.bind fun p => foundBy? (p.step s.now)

variable {s t : OneToMany} {m : OneToManyMatch}

theorem records_note (j : Journal) (s t : OneToMany) :
    (j.note s t).records = s.findsNext?.toList ++ j.records := by
  cases hs : s.pass with
  | some p =>
    rw [findsNext?, hs, Option.bind_some, Journal.note, hs, Journal.records, Journal.records,
      ← List.append_assoc]
    dsimp only
    rw [List.filterMap_cons]
    cases foundBy? (p.step s.now) with
    | none => rfl
    | some m => rfl
  | none =>
    rw [findsNext?, hs, Option.bind_none, Journal.note, hs]
    cases t.pass with
    | none => rfl
    | some p => rfl

theorem finds_of_stop (h : s.move = .stop t) : s.finds = [] := by
  rw [finds, journal_of_stop h]
  rfl

theorem finds_of_move (h : s.move.after? = some t) : s.finds = s.findsNext?.toList ++ t.finds := by
  cases hm : s.move with
  | stop u =>
    rw [hm] at h
    cases h
  | give r u =>
    rw [hm] at h
    cases h
    rw [finds, journal_of_give hm, records_note, finds]
  | go u =>
    rw [hm] at h
    cases h
    rw [finds, journal_of_go hm, records_note, finds]

theorem findsNext?_of_pass_none (h : s.pass = none) : s.findsNext? = none := by
  rw [findsNext?, h]
  rfl

theorem findsNext?_of_step {p : FlowPass} {step : Result FlowPass.Step} (hp : s.pass = some p)
    (h : p.step s.now = step) : s.findsNext? = foundBy? step := by
  rw [findsNext?, hp, Option.bind_some, h]

theorem findsNext?_eq_some (h : s.findsNext? = some m) :
    ∃ p q, s.pass = some p ∧ p.step s.now = .ok (.found m q) := by
  obtain ⟨p, hp, hfound⟩ := Option.bind_eq_some_iff.1 h
  unfold foundBy? at hfound
  split at hfound
  · rename_i record q hstep
    cases hfound
    exact ⟨p, q, hp, hstep⟩
  · cases hfound

/-! What is given of what is found -/

/-- The records that are new to a search, the first one of each id. -/
def news (yielded : List String) (ms : List OneToManyMatch) : List OneToManyMatch :=
  (ms.filter fun m => m.id ∉ yielded).eraseDupsBy fun a b => a.id == b.id

theorem news_cons_known {yielded : List String} {ms : List OneToManyMatch} (h : m.id ∈ yielded) :
    news yielded (m :: ms) = news yielded ms := by
  rw [news, List.filter_cons_of_neg (by simpa using h), news]

theorem news_cons_new {yielded : List String} {ms : List OneToManyMatch} (h : m.id ∉ yielded) :
    news yielded (m :: ms) = m :: news (m.id :: yielded) ms := by
  rw [news, List.filter_cons_of_pos (by simpa using h), List.eraseDupsBy_cons, List.filter_filter, news]
  refine congrArg (fun l => m :: List.eraseDupsBy (fun a b : OneToManyMatch => a.id == b.id) l) ?_
  refine List.filter_congr fun n _ => ?_
  simp

theorem gives_of_stop (h : s.move = .stop t) : s.gives = [] := by
  rw [gives, results_of_stop h]
  rfl

theorem gives_of_go (h : s.move = .go t) : s.gives = t.gives := by
  rw [gives, results_of_go h, gives]

theorem gives_of_give {r : Result OneToManyMatch} (h : s.move = .give r t) :
    s.gives = r.toOption.toList ++ t.gives := by
  rw [gives, results_of_give h, List.filterMap_cons, gives]
  cases r with
  | error e => rfl
  | ok m => rfl

theorem finished_of_give_error {e : MatchError} (h : s.move = .give (.error e) t) :
    t.finished = true := by
  have hm := moves_move s
  rw [h] at hm
  cases hm with
  | unbuilt => rfl
  | failed => rfl

/-- A search gives the first record of each id that is new to it, of all that its passes find. -/
theorem gives_eq_news (s : OneToMany) : s.gives = news s.yielded s.finds := by
  fun_induction journal s with
  | case1 s t hm =>
    rw [gives_of_stop hm, finds_of_stop hm]
    rfl
  | case2 s r t hm ih =>
    rw [gives_of_give hm, finds_of_move (by rw [hm]; rfl)]
    have hmoves := moves_move s
    rw [hm] at hmoves
    cases hmoves with
    | unbuilt hpass =>
      have hstop := move_of_finished (finished_of_give_error hm)
      rw [findsNext?_of_pass_none hpass, gives_of_stop hstop, finds_of_stop hstop]
      rfl
    | failed hp hstep =>
      have hstop := move_of_finished (finished_of_give_error hm)
      rw [findsNext?_of_step hp hstep, gives_of_stop hstop, finds_of_stop hstop]
      rfl
    | @found p q record hp hstep hnew =>
      have hnew : record.id ∉ s.yielded := by simpa using hnew
      rw [findsNext?_of_step hp hstep, ih]
      exact (news_cons_new hnew).symm
  | case3 s t hm ih =>
    rw [gives_of_go hm, finds_of_move (by rw [hm]; rfl), ih]
    have hmoves := moves_move s
    rw [hm] at hmoves
    cases hmoves with
    | built hpass => rw [findsNext?_of_pass_none hpass]; rfl
    | exhausted hp hstep => rw [findsNext?_of_step hp hstep]; rfl
    | more hp hstep => rw [findsNext?_of_step hp hstep]; rfl
    | @known p q record hp hstep hknown =>
      have hknown : record.id ∈ s.yielded := by simpa using hknown
      rw [findsNext?_of_step hp hstep]
      exact (news_cons_known hknown).symm

/-! What is found -/

theorem reaches_finds (h : m ∈ s.finds) : ∃ t, Reaches s t ∧ t.findsNext? = some m := by
  have later : ∀ {s t : OneToMany}, s.move.after? = some t → m ∈ s.finds →
      (m ∈ t.finds → ∃ u, Reaches t u ∧ u.findsNext? = some m) →
      ∃ u, Reaches s u ∧ u.findsNext? = some m := by
    intro s t hmove hm ih
    rw [finds_of_move hmove] at hm
    rcases List.mem_append.1 hm with hm | hm
    · exact ⟨s, .start, Option.mem_toList.1 hm⟩
    · obtain ⟨u, hu, hnext⟩ := ih hm
      exact ⟨u, (Reaches.start.move hmove).trans hu, hnext⟩
  fun_induction journal s with
  | case1 s t hm =>
    rw [finds_of_stop hm] at h
    cases h
  | case2 s r t hm ih => exact later (by rw [hm]; rfl) h ih
  | case3 s t hm ih => exact later (by rw [hm]; rfl) h ih

section

variable {chain : PolicyChain} {root : ResolvedOrder} {candidates : List ResolvedOrder}
  {now : UInt64}

/-- A record that a pass over a part of the pool finds: its id is that of its orders, which are the
root and some of the pool. -/
structure OfPool (root : ResolvedOrder) (pool : List ResolvedOrder) (m : OneToManyMatch) : Prop where
  id_eq : m.id = matchId m.orderIds
  orders : ∃ chosen : List ResolvedOrder, chosen.Sublist pool ∧
    m.orderIds = root.id :: chosen.map (·.id)

theorem ofPool_finds (h : m ∈ (start chain root candidates now).finds) :
    OfPool root (poolOf root candidates) m := by
  obtain ⟨t, hreach, hnext⟩ := reaches_finds h
  obtain ⟨p, q, hp, hstep⟩ := findsNext?_eq_some hnext
  obtain ⟨rest, hrest, hpass⟩ := ((runs_start chain root candidates now).reaches hreach).reachable hp
  obtain ⟨-, -, -, clearing, -, rfl⟩ := FlowPass.step_eq_found hstep
  have sound := hpass.round.sound
  refine ⟨rfl, p.afterRound.chosenFrom rest, sound.chosen_sublist.trans hrest.sublist, ?_⟩
  rw [OneToManyMatch.orderIds]
  dsimp only [OneToManyMatch.make]
  rw [sound.sameRoot, sound.opposingOrders_eq, List.map_map]
  rfl

theorem OfPool.plainIds (h : OfPool root (poolOf root candidates) m) (hroot : ':' ∉ root.id.toList)
    (hcandidates : ∀ c ∈ candidates, ':' ∉ c.id.toList) : PlainIds m.orderIds := by
  obtain ⟨chosen, hchosen, horders⟩ := h.orders
  rw [horders]
  refine ⟨List.cons_ne_nil _ _, List.forall_mem_cons.2 ⟨hroot, fun id hid => ?_⟩⟩
  obtain ⟨c, hc, rfl⟩ := List.mem_map.1 hid
  exact hcandidates c (mem_poolOf.1 (hchosen.subset hc)).1

theorem gives_start : (start chain root candidates now).gives =
    (start chain root candidates now).finds.eraseDupsBy fun a b => a.id == b.id := by
  rw [gives_eq_news, news]
  refine congrArg (List.eraseDupsBy fun a b : OneToManyMatch => a.id == b.id) ?_
  exact List.filter_eq_self.2 fun m _ => by simp [start]

theorem ofPool_records {ms : List OneToManyMatch}
    (h : (start chain root candidates now).records = .ok ms) (hm : m ∈ ms) :
    OfPool root (poolOf root candidates) m := by
  rw [records_eq] at h
  obtain ⟨r, hr, rfl⟩ := mem_mapM h hm
  have hgives : m ∈ (start chain root candidates now).gives := List.mem_filterMap.2 ⟨_, hr, rfl⟩
  rw [gives_start] at hgives
  exact ofPool_finds ((eraseDupsBy_sublist _ _).subset hgives)

end

/-! Passes one after the other -/

section

variable {chain : PolicyChain} {root r : ResolvedOrder} {now : UInt64} {pool : List ResolvedOrder}
  {yielded : List String} {p q : FlowPass}

theorem findsNext?_inPass : (inPass chain root now p pool yielded).findsNext? = foundBy? (p.step now) :=
  rfl

theorem finds_between_nil : (between chain root now [] yielded).finds = [] := finds_of_stop rfl

theorem finds_between_cons (hp : FlowPass.build chain root (r :: pool) = .ok p) :
    (between chain root now (r :: pool) yielded).finds =
      (inPass chain root now p pool yielded).finds :=
  finds_of_move (by rw [move_built hp]; rfl)

theorem finds_of_still (h : p.graph.pushFlow.2 = 0) :
    (inPass chain root now p pool yielded).finds = (between chain root now pool yielded).finds := by
  have hstep : p.step now = .ok .exhausted := FlowPass.step_of_still h
  rw [finds_of_move (by rw [move_exhausted hstep]; rfl), findsNext?_inPass, hstep]
  rfl

theorem finds_between_of_more (hp : FlowPass.build chain root (r :: pool) = .ok p)
    (h : p.step now = .ok (.more q)) (hstill : q.graph.pushFlow.2 = 0) :
    (between chain root now (r :: pool) yielded).finds =
      (between chain root now pool yielded).finds := by
  rw [finds_between_cons hp, finds_of_move (by rw [move_more h]; rfl), findsNext?_inPass, h,
    finds_of_still hstill]
  rfl

theorem finds_between_of_found (hp : FlowPass.build chain root (r :: pool) = .ok p)
    (h : p.step now = .ok (.found m q)) (hstill : q.graph.pushFlow.2 = 0) :
    ∃ after, (between chain root now (r :: pool) yielded).finds =
      m :: (between chain root now pool after).finds := by
  have hround : ∀ after, (inPass chain root now p pool yielded).move.after? =
      some (inPass chain root now q pool after) → (inPass chain root now p pool yielded).finds =
        m :: (between chain root now pool after).finds := by
    intro after hmove
    rw [finds_of_move hmove, findsNext?_inPass, h, finds_of_still hstill]
    rfl
  rw [finds_between_cons hp]
  by_cases hknown : m.id ∈ yielded
  · exact ⟨yielded, hround yielded (by rw [move_known h hknown]; rfl)⟩
  · exact ⟨m.id :: yielded, hround _ (by rw [move_new h hknown]; rfl)⟩

theorem finds_of_three {r₁ r₂ r₃ : ResolvedOrder} {p₁ p₂ p₃ q₁ q₂ q₃ : FlowPass}
    {first second : OneToManyMatch}
    (hpool : poolOf root [r₁, r₂, r₃] = [r₁, r₂, r₃])
    (hp₁ : FlowPass.build chain root [r₁, r₂, r₃] = .ok p₁)
    (hp₂ : FlowPass.build chain root [r₂, r₃] = .ok p₂)
    (hp₃ : FlowPass.build chain root [r₃] = .ok p₃)
    (hfirst : p₁.step now = .ok (.found first q₁)) (hsecond : p₂.step now = .ok (.found second q₂))
    (hmore : p₃.step now = .ok (.more q₃)) (hstill₁ : q₁.graph.pushFlow.2 = 0)
    (hstill₂ : q₂.graph.pushFlow.2 = 0) (hstill₃ : q₃.graph.pushFlow.2 = 0) :
    (start chain root [r₁, r₂, r₃] now).finds = [first, second] := by
  have hstart : start chain root [r₁, r₂, r₃] now = between chain root now [r₁, r₂, r₃] [] := by
    rw [start, hpool]
    rfl
  obtain ⟨known, h₁⟩ : ∃ known, (between chain root now [r₁, r₂, r₃] []).finds =
      first :: (between chain root now [r₂, r₃] known).finds :=
    finds_between_of_found hp₁ hfirst hstill₁
  obtain ⟨known', h₂⟩ : ∃ known', (between chain root now [r₂, r₃] known).finds =
      second :: (between chain root now [r₃] known').finds :=
    finds_between_of_found hp₂ hsecond hstill₂
  rw [hstart, h₁, h₂, finds_between_of_more hp₃ hmore hstill₃, finds_between_nil]

end

end OneToMany

/-- That some search finds a record. -/
def OrderMatch.IsFound (m : OrderMatch) : Prop :=
  ∃ chain config root candidates now outcome,
    Engine.searchWithCandidates chain config root candidates now = .ok outcome ∧
      m ∈ outcome.orderMatches

theorem OrderMatch.IsFound.id_eq {m : OrderMatch} (h : m.IsFound) : m.id = matchId m.orderIds := by
  obtain ⟨chain, config, root, candidates, now, outcome, h, hm⟩ := h
  cases m with
  | oneToOne m =>
    obtain ⟨c, -, hc⟩ := Engine.oneToOne_of_search h hm
    obtain ⟨-, x, p, clearing, -, -, -, rfl⟩ := OneToOne.matchCandidate_eq_some hc
    rfl
  | oneToMany m =>
    have hmany := (Engine.searchWithCandidates_eq_ok h).2
    have hm := SearchOutcome.mem_oneToMany.2 hm
    split at hmany
    · exact (OneToMany.ofPool_records hmany hm).id_eq
    · rw [hmany] at hm
      cases hm

namespace OneToMany

/-- The ids of records by what the digest tells apart. Orders in another sequence have the same id; two
lists of orders have one id exactly if colons cut their ids into the same pieces, and where no id has a
colon, exactly if they are the same orders. So records of searches over such orders share an id only if
they have the same orders, and a search gives of all records that its passes find the first one of each
set of orders. -/
theorem gives_once_per_orders {texts : Set String} (hdigest : Set.InjOn Digest.ofText texts) :
    (∀ l m : List String, l.Perm m → matchId l = matchId m) ∧
    (∀ l m : List String, joinedIds l ∈ texts → joinedIds m ∈ texts →
      (matchId l = matchId m ↔ idPieces l = idPieces m) ∧
      (PlainIds l → PlainIds m → (matchId l = matchId m ↔ l.Perm m))) ∧
    (∀ m n : OrderMatch, m.IsFound → n.IsFound → PlainIds m.orderIds → PlainIds n.orderIds →
      joinedIds m.orderIds ∈ texts → joinedIds n.orderIds ∈ texts →
      (m.id = n.id ↔ m.orderIds.Perm n.orderIds)) ∧
    ∀ (chain : PolicyChain) (root : ResolvedOrder) (candidates : List ResolvedOrder) (now : UInt64),
      let search := start chain root candidates now
      search.gives = search.finds.eraseDupsBy (fun a b => a.id == b.id) ∧
      (':' ∉ root.id.toList → (∀ c ∈ candidates, ':' ∉ c.id.toList) →
        (∀ m ∈ search.finds, joinedIds m.orderIds ∈ texts) →
        search.gives = search.finds.eraseDupsBy fun a b => decide (a.orderIds.Perm b.orderIds)) := by
  refine ⟨fun l m => matchId_of_perm, fun l m hl hm => ⟨?_, ?_⟩, ?_, ?_⟩
  · rw [matchId_eq, matchId_eq, hdigest.eq_iff hl hm, joinedIds_eq_iff]
  · exact fun hlplain hmplain => hlplain.matchId_eq_iff hdigest hmplain hl hm
  · intro m n hm hn hmplain hnplain hmtext hntext
    rw [hm.id_eq, hn.id_eq]
    exact hmplain.matchId_eq_iff hdigest hnplain hmtext hntext
  · intro chain root candidates now search
    refine ⟨gives_start, fun hroot hcandidates htexts => ?_⟩
    rw [show search.gives = _ from gives_start]
    refine eraseDupsBy_congr fun a ha b hb => ?_
    have hafound := ofPool_finds ha
    have hbfound := ofPool_finds hb
    have hids : a.id = b.id ↔ a.orderIds.Perm b.orderIds := by
      rw [hafound.id_eq, hbfound.id_eq]
      exact (hafound.plainIds hroot hcandidates).matchId_eq_iff hdigest
        (hbfound.plainIds hroot hcandidates) (htexts a ha) (htexts b hb)
    rw [Bool.eq_iff_iff, beq_iff_eq, decide_eq_true_iff, hids]

def asksAfterOther : List ResolvedOrder := [askForOne "a" "3", askForOne "b" "1", askForOne "c" "2"]

theorem finds_asksAfterOther : ∃ first second,
    (start .default bidForTwo asksAfterOther 7).finds = [first, second] ∧
      first.orderIds = ["bid", "b", "c"] ∧ second.orderIds = ["bid", "b", "c"] := by
  have hpool : poolOf bidForTwo asksAfterOther = asksAfterOther :=
    poolOf_eq_self (by decide +kernel) (by decide +kernel)
  exact ⟨_, _, finds_of_three hpool rfl rfl rfl rfl rfl rfl rfl rfl rfl, rfl, rfl⟩

/-- The second time the orders are found, they are not given again; other orders have another id. -/
theorem gives_once_per_orders_asksAfterOther :
    Set.InjOn Digest.ofText {"b:bid:c", "a:b:bid"} ∧
    matchId ["bid", "a", "b"] ≠ matchId ["bid", "b", "c"] ∧
    ∃ first second, (start .default bidForTwo asksAfterOther 7).finds = [first, second] ∧
      (start .default bidForTwo asksAfterOther 7).gives = [first] := by
  have hdiffer : Digest.ofText "b:bid:c" ≠ Digest.ofText "a:b:bid" := by decide +kernel
  have hdigest : Set.InjOn Digest.ofText {"b:bid:c", "a:b:bid"} := by
    rintro s (rfl | rfl) t (rfl | rfl) h
    · rfl
    · exact absurd h hdiffer
    · exact absurd h.symm hdiffer
    · rfl
  have htext : joinedIds ["bid", "b", "c"] = "b:bid:c" := by
    rw [joinedIds, sortedIds_eq (m := ["b", "bid", "c"]) (by decide) (by decide)]
    rfl
  have htext' : joinedIds ["bid", "a", "b"] = "a:b:bid" := by
    rw [joinedIds, sortedIds_eq (m := ["a", "b", "bid"]) (by decide) (by decide)]
    rfl
  obtain ⟨-, hids, -, hsearch⟩ := gives_once_per_orders hdigest
  obtain ⟨first, second, hfinds, hfirst, hsecond⟩ := finds_asksAfterOther
  refine ⟨hdigest, fun h => ?_, first, second, hfinds, ?_⟩
  · have hplain := (hids ["bid", "a", "b"] ["bid", "b", "c"] (by simp [htext']) (by simp [htext])).2
    have hperm := (hplain ⟨by simp, by decide⟩ ⟨by simp, by decide⟩).1 h
    exact absurd hperm (by decide)
  · have htexts : ∀ m ∈ (start .default bidForTwo asksAfterOther 7).finds,
        joinedIds m.orderIds = "b:bid:c" := by
      intro m hm
      rw [hfinds] at hm
      rcases List.mem_pair.1 hm with rfl | rfl
      · rw [hfirst, htext]
      · rw [hsecond, htext]
    have hgives := (hsearch .default bidForTwo asksAfterOther 7).2 (by decide) (by decide)
      fun m hm => .inl (htexts m hm)
    rw [hgives, hfinds, List.eraseDupsBy_cons]
    simp [hfirst, hsecond]

def asksOfColons : List ResolvedOrder :=
  [askForOne "a:b" "1", askForOne "a:b:a" "2", askForOne "b:a" "1"]

/-- Two sets of orders have one id, and the search gives only one of the two. -/
theorem loses_orders_of_colons :
    matchId ["bid", "a:b", "a:b:a"] = matchId ["bid", "a:b:a", "b:a"] ∧
    ¬ ["bid", "a:b", "a:b:a"].Perm ["bid", "a:b:a", "b:a"] ∧
    ∃ first second, (start .default bidForTwo asksOfColons 7).finds = [first, second] ∧
      (start .default bidForTwo asksOfColons 7).gives = [first] ∧
      ¬ first.orderIds.Perm second.orderIds := by
  have hpool : poolOf bidForTwo asksOfColons = asksOfColons :=
    poolOf_eq_self (by decide +kernel) (by decide +kernel)
  obtain ⟨first, second, hfinds, hfirst, hsecond⟩ : ∃ first second,
      (start .default bidForTwo asksOfColons 7).finds = [first, second] ∧
        first.orderIds = ["bid", "a:b", "a:b:a"] ∧ second.orderIds = ["bid", "a:b:a", "b:a"] :=
    ⟨_, _, finds_of_three hpool rfl rfl rfl rfl rfl rfl rfl rfl rfl, rfl, rfl⟩
  have hdiffer : ¬ ["bid", "a:b", "a:b:a"].Perm ["bid", "a:b:a", "b:a"] := by decide
  have hsame : matchId ["bid", "a:b", "a:b:a"] = matchId ["bid", "a:b:a", "b:a"] := by
    rw [matchId, matchId, sortedIds_eq (m := ["a:b", "a:b:a", "bid"]) (by decide) (by decide),
      sortedIds_eq (m := ["a:b:a", "b:a", "bid"]) (by decide) (by decide)]
    rfl
  refine ⟨hsame, hdiffer, first, second, hfinds, ?_, by rwa [hfirst, hsecond]⟩
  have hmade : ∀ m ∈ [first, second], m.id = matchId m.orderIds := fun m hm => by
    rw [← hfinds] at hm
    exact (ofPool_finds hm).id_eq
  have hid : second.id = first.id := by
    rw [hmade first (by simp), hmade second (by simp), hfirst, hsecond, hsame]
  rw [gives_start, hfinds, List.eraseDupsBy_cons]
  simp [hid]

end OneToMany

end OrderBook

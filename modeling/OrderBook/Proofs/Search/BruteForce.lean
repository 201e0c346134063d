import OrderBook.Proofs.Search.Discovery
import OrderBook.Proofs.Search.ExactFill
import OrderBook.Proofs.Search.NoFailure
import OrderBook.Proofs.Search.Pairings
import OrderBook.Proofs.Search.Pool

/-!
A search against a book finds what a search over all orders of the book finds. Orders that the
discovery leaves out are silent. A silent order has no pairing with the root, and it changes nothing
in the passes of a one-to-many search, where the pool is in one order however the candidates come.
-/

namespace OrderBook

namespace OneToOne

variable {chain : PolicyChain} {root candidate : ResolvedOrder} {now : UInt64}

theorem pairing?_of_silent (hsilent : Silent chain root candidate) (hsize : 1 ≤ root.order.numItems)
    {p : Pairing} : pairing? chain root candidate ≠ .ok (some p) := by
  intro h
  have pairs := pairs_of_pairing? h
  have hpos : 1 ≤ p.length :=
    Nat.le_trans (UInt32.le_iff_toNat_le.1 hsize) (fills_iff.1 pairs.fills).1
  obtain ⟨x, hx⟩ := List.exists_mem_of_length_pos hpos
  obtain ⟨a, b, ha, hb, hmatch⟩ := pairs.accepted x hx
  have hagree := hsilent a (List.mem_of_getElem? ha) b (List.mem_of_getElem? hb)
  rw [PolicyChain.agrees, hmatch] at hagree
  cases hagree

theorem matchCandidate_of_silent (hsilent : Silent chain root candidate)
    (hsize : 1 ≤ root.order.numItems) {found : Option OneToOneMatch}
    (h : (matchCandidate chain root candidate now).forgive = .ok found) : found = none := by
  cases found with
  | none => rfl
  | some m =>
    have h := forgive_eq_some h
    obtain ⟨-, x, p, clearing, -, hp, -, -⟩ := matchCandidate_eq_some h
    exact absurd hp (pairing?_of_silent hsilent hsize)

theorem recordWith_of_silent (hsilent : Silent chain root candidate)
    (hsize : 1 ≤ root.order.numItems) : recordWith chain root now candidate = none := by
  rw [recordWith]
  split
  · rename_i found h
    exact matchCandidate_of_silent hsilent hsize h
  · rfl

theorem search_filter {chosen all : List ResolvedOrder} {known : ResolvedOrder → Bool}
    (hchosen : chosen.Perm (all.filter known)) (hsize : 1 ≤ root.order.numItems)
    (hsilent : ∀ c ∈ all, known c = false → Silent chain root c) {ms ns : List OneToOneMatch}
    (hms : search chain root now chosen = .ok ms) (hns : search chain root now all = .ok ns) :
    ms.Perm ns := by
  have hall : (all.filter known).filterMap (recordWith chain root now) =
      all.filterMap (recordWith chain root now) := by
    rw [List.filterMap_filter]
    refine List.filterMap_congr fun c hc => ?_
    cases hknown : known c with
    | true => rfl
    | false =>
      rw [recordWith_of_silent (hsilent c hc hknown) hsize]
      rfl
  rw [(search_eq_ok_iff.1 hms).2, (search_eq_ok_iff.1 hns).2, ← hall]
  exact hchosen.filterMap _

end OneToOne

theorem OneToMany.records_of_chosen {chain : PolicyChain} {root : ResolvedOrder} {now : UInt64}
    {chosen all : List ResolvedOrder} {known : ResolvedOrder → Bool}
    (hids : (all.map (·.id)).Nodup) (hchosen : chosen.Perm (all.filter known))
    (hsilent : ∀ c ∈ all, known c = false → Silent chain root c) {ms ns : List OneToManyMatch}
    (hms : (start chain root chosen now).records = .ok ms)
    (hns : (start chain root all now).records = .ok ns) : ms = ns := by
  have hstart : start chain root chosen now =
      between chain root now ((poolOf root all).filter known) [] := by
    rw [start, poolOf_filter hids hchosen]
    rfl
  rw [hstart] at hms
  have hpool : ∀ r ∈ poolOf root all, r.order.numItems = 1 := fun r hr =>
    (isPoolCandidate_iff.1 (mem_poolOf.1 hr).2).1
  have hleft : ∀ r ∈ poolOf root all, known r = false → Silent chain root r := fun r hr =>
    hsilent r (mem_poolOf.1 hr).1
  exact (records_filter known hleft hpool hns hms).symm

namespace SearchOutcome

def oneToOne (o : SearchOutcome) : List OneToOneMatch :=
  o.orderMatches.filterMap fun m => match m with
    | .oneToOne m => some m
    | .oneToMany _ => none

def oneToMany (o : SearchOutcome) : List OneToManyMatch :=
  o.orderMatches.filterMap fun m => match m with
    | .oneToOne _ => none
    | .oneToMany m => some m

theorem mem_oneToOne {o : SearchOutcome} {m : OneToOneMatch} :
    m ∈ o.oneToOne ↔ .oneToOne m ∈ o.orderMatches := by
  rw [oneToOne, List.mem_filterMap]
  constructor
  · rintro ⟨n, hn, h⟩
    cases n with
    | oneToOne n =>
      cases h
      exact hn
    | oneToMany n => cases h
  · exact fun h => ⟨_, h, rfl⟩

theorem mem_oneToMany {o : SearchOutcome} {m : OneToManyMatch} :
    m ∈ o.oneToMany ↔ .oneToMany m ∈ o.orderMatches := by
  rw [oneToMany, List.mem_filterMap]
  constructor
  · rintro ⟨n, hn, h⟩
    cases n with
    | oneToOne n => cases h
    | oneToMany n =>
      cases h
      exact hn
  · exact fun h => ⟨_, h, rfl⟩

theorem parts_append (single : List OneToOneMatch) (several : List OneToManyMatch) (scan : List Order) :
    (SearchOutcome.mk (single.map .oneToOne ++ several.map .oneToMany) scan).oneToOne = single ∧
      (SearchOutcome.mk (single.map .oneToOne ++ several.map .oneToMany) scan).oneToMany = several := by
  simp [oneToOne, oneToMany, List.filterMap_append, List.filterMap_map]

end SearchOutcome

namespace Engine

variable {chain : PolicyChain} {config : MatcherConfig} {root : ResolvedOrder} {now : UInt64}

theorem searchWithCandidates_eq_ok {candidates : List ResolvedOrder} {found : SearchOutcome}
    (h : searchWithCandidates chain config root candidates now = .ok found) :
    OneToOne.search chain root now candidates = .ok found.oneToOne ∧
      if config.oneToManyEnabled && root.isEligibleRoot then
        (OneToMany.start chain root candidates now).records = .ok found.oneToMany
      else found.oneToMany = [] := by
  obtain ⟨single, hsingle, h⟩ := bind_eq_ok.1 h
  have parts : ∀ several, SearchOutcome.mk (single.map .oneToOne ++ several.map .oneToMany)
      (requiresScan root candidates) = found →
      found.oneToOne = single ∧ found.oneToMany = several := by
    intro several hfound
    subst hfound
    exact SearchOutcome.parts_append single several _
  dsimp only at h
  split at h
  · rename_i hallowed
    obtain ⟨several, hseveral, h⟩ := bind_eq_ok.1 h
    obtain ⟨hone, hmany⟩ := parts several (pure_eq_ok.1 h)
    rw [if_pos hallowed, hone, hmany]
    exact ⟨hsingle, hseveral⟩
  · rename_i hallowed
    obtain ⟨hone, hmany⟩ := parts [] (pure_eq_ok.1 h)
    rw [if_neg hallowed, hone, hmany]
    exact ⟨hsingle, rfl⟩

theorem oneToOne_of_search {candidates : List ResolvedOrder} {outcome : SearchOutcome}
    (h : searchWithCandidates chain config root candidates now = .ok outcome) {m : OneToOneMatch}
    (hm : .oneToOne m ∈ outcome.orderMatches) :
    ∃ c ∈ candidates, OneToOne.matchCandidate chain root c now = .ok (some m) :=
  (OneToOne.mem_search (searchWithCandidates_eq_ok h).1).1 (SearchOutcome.mem_oneToOne.2 hm)

theorem searchWithCandidates_of_chosen {chosen all : List ResolvedOrder}
    {known : ResolvedOrder → Bool} (hids : (all.map (·.id)).Nodup)
    (hchosen : chosen.Perm (all.filter known)) (hsize : 1 ≤ root.order.numItems)
    (hsilent : ∀ c ∈ all, known c = false → Silent chain root c) {some every : SearchOutcome}
    (hsome : searchWithCandidates chain config root chosen now = .ok some)
    (hevery : searchWithCandidates chain config root all now = .ok every) :
    some.oneToOne.Perm every.oneToOne ∧ some.oneToMany = every.oneToMany := by
  obtain ⟨hone, hmany⟩ := searchWithCandidates_eq_ok hsome
  obtain ⟨hone', hmany'⟩ := searchWithCandidates_eq_ok hevery
  refine ⟨OneToOne.search_filter hchosen hsize hsilent hone hone', ?_⟩
  split at hmany
  · rename_i hallowed
    rw [if_pos hallowed] at hmany'
    exact OneToMany.records_of_chosen hids hchosen hsilent hmany hmany'
  · rename_i hallowed
    rw [if_neg hallowed] at hmany'
    rw [hmany, hmany']

variable {b : Book}

theorem search_source (hstored : b.find? root.id = some root) :
    (search ⟨b.source, chain, config⟩ root.id now).1 =
      ((findCandidates ⟨b.source, chain, config⟩ root).1 >>= fun candidates =>
        searchWithCandidates chain config root candidates now) := by
  have hresolve : b.source.resolve? root.id = .ok (some root) := by
    rw [Book.resolve?_source, hstored]
  simp only [search, hresolve]
  rfl

theorem failsOnly_findCandidates_source (hids : (b.allItems.map (·.id)).Nodup) (r : ResolvedOrder) :
    FailsOnly MatchError.IsApart (findCandidates ⟨b.source, chain, config⟩ r).1 := by
  have hdiscover : FailsOnly MatchError.IsApart
      (discover ⟨b.source, chain, config⟩ r.id [] r.items).1 := by
    rw [discover_source hids]
    refine FailsOnly.foldlM (fun found item => FailsOnly.foldlM (fun known c => ?_) _ _) _ _
    exact failsOnly_consider chain r.id item known c
  refine .bind hdiscover fun ids _ => ?_
  rw [Book.resolveAll_source]
  exact .ok _

theorem failsOnly_search_source (hids : (b.allItems.map (·.id)).Nodup)
    (hstored : b.find? root.id = some root) :
    FailsOnly MatchError.IsApart (search ⟨b.source, chain, config⟩ root.id now).1 := by
  rw [search_source hstored]
  refine .bind (failsOnly_findCandidates_source hids root) fun candidates _ => ?_
  exact failsOnly_searchWithCandidates chain config root candidates now

/-- A search for an order of a book gives the records of a search with all other orders of the book
as candidates: the same records of one opposing order, and the same records of several in the same
order. The items of the book belong to their orders and have ids of their own, and no two spreads are
so far apart that their difference is no number. -/
theorem search_eq_bruteForce (b : Book) (chain : PolicyChain) (config : MatcherConfig)
    (root : ResolvedOrder) (others : List ResolvedOrder) (now : UInt64)
    (hown : ∀ r ∈ b.orders.entries, ∀ i ∈ r.items, i.orderId = r.id)
    (hids : (b.allItems.map (·.id)).Nodup) (hstored : b.find? root.id = some root)
    (hsize : 1 ≤ root.order.numItems)
    (hothers : others.Perm (b.orders.entries.filter fun r => r.id ≠ root.id))
    (hsearch : (search ⟨b.source, chain, config⟩ root.id now).1 ≠ .error .spreadsTooFarApart)
    (hbrute : searchWithCandidates chain config root others now ≠ .error .spreadsTooFarApart) :
    ∃ found all, (search ⟨b.source, chain, config⟩ root.id now).1 = .ok found ∧
      searchWithCandidates chain config root others now = .ok all ∧
      found.oneToOne.Perm all.oneToOne ∧ found.oneToMany = all.oneToMany := by
  obtain ⟨found, hfound⟩ := (failsOnly_search_source hids hstored).exists_ok fun e he => by
    rw [show e = _ from he]
    exact hsearch
  obtain ⟨all, hall⟩ :=
    (failsOnly_searchWithCandidates chain config root others now).exists_ok fun e he => by
      rw [show e = _ from he]
      exact hbrute
  refine ⟨found, all, hfound, hall, ?_⟩
  rw [search_source hstored] at hfound
  obtain ⟨candidates, hcandidates, hfound⟩ := bind_eq_ok.1 hfound
  obtain ⟨known, hchosen, hsilent⟩ := findCandidates_source hids hown hcandidates
  have hmem : ∀ c ∈ others, c ∈ b.orders.entries ∧ c.id ≠ root.id := by
    intro c hc
    obtain ⟨hc, hne⟩ := List.mem_filter.1 (hothers.subset hc)
    exact ⟨hc, of_decide_eq_true hne⟩
  have hdistinct : (others.map (·.id)).Nodup := by
    refine (hothers.map ResolvedOrder.id).nodup_iff.2 ?_
    exact b.orders.nodup_keys.sublist (List.filter_sublist.map _)
  refine searchWithCandidates_of_chosen hdistinct (hchosen.trans (hothers.symm.filter known)) hsize
    (fun c hc => ?_) hfound hall
  exact hsilent c (hmem c hc).1 (hmem c hc).2

open OneToMany (bidForTwo askForOne asksForTwo)

def asksForThree : List ResolvedOrder := asksForTwo ++ [askForOne "c" "3"]

def bookForTwo : Book := .ofList (bidForTwo :: asksForThree)

theorem findCandidates_bookForTwo :
    (findCandidates ⟨bookForTwo.source, .default, {}⟩ bidForTwo).1 = .ok asksForTwo := by
  have hids : (bookForTwo.allItems.map (·.id)).Nodup := by decide +kernel
  have hresults : ∀ i ∈ bidForTwo.items,
      (PolicyChain.default.candidateQuery i 500).results bookForTwo.allItems =
        bookForTwo.allItems.filter (PolicyChain.default.candidateQuery i 500).selects := by
    intro i hi
    apply CandidateQuery.results_eq_filter
    revert i
    decide +kernel
  have hdiscover : (discover ⟨bookForTwo.source, .default, {}⟩ bidForTwo.id [] bidForTwo.items).1 =
      .ok ["a", "b"] := by
    rw [discover_source hids, foldlM_congr fun i hi found => by rw [hresults i hi]]
    rfl
  have hresolve : resolveAll bookForTwo.source ["a", "b"] = .ok asksForTwo := by
    rw [Book.resolveAll_source]
    rfl
  simp only [findCandidates, hdiscover]
  exact congrArg liftStore hresolve

theorem searchWithCandidates_bidForTwo {candidates : List ResolvedOrder}
    (h : candidates ∈ [asksForTwo, asksForThree]) :
    ∃ found, searchWithCandidates .default {} bidForTwo candidates 7 = .ok found ∧
      found.oneToMany.length = 1 := by
  have hpool : OneToMany.poolOf bidForTwo candidates = candidates := by
    refine OneToMany.poolOf_eq_self ?_ ?_
    · revert candidates
      decide +kernel
    · revert candidates
      decide +kernel
  have hrecords : (OneToMany.start .default bidForTwo candidates 7).records =
      (OneToMany.foundIn 20
        { chain := .default, root := bidForTwo, now := 7, pool := candidates }).mapM (·.1) := by
    rw [OneToMany.records, OneToMany.drain_start_eq hpool]
    clear hpool
    revert candidates
    decide +kernel
  have hone : (searchWithCandidates .default {} bidForTwo candidates 7).toOption.any
      (·.oneToMany.length == 1) = true := by
    simp only [searchWithCandidates, hrecords]
    clear hpool hrecords
    revert candidates
    decide +kernel
  obtain ⟨found, hfound, hlength⟩ := (Option.any_eq_true _ _).1 hone
  refine ⟨found, ?_, by simpa using hlength⟩
  cases hsearch : searchWithCandidates .default {} bidForTwo candidates 7 with
  | ok all =>
    rw [hsearch] at hfound
    cases hfound
    rfl
  | error e =>
    rw [hsearch] at hfound
    cases hfound

/-- The bid for two tokens is filled once, by the same two asks in both searches. -/
theorem search_eq_bruteForce_bidForTwo :
    ∃ found all, (search ⟨bookForTwo.source, .default, {}⟩ bidForTwo.id 7).1 = .ok found ∧
      searchWithCandidates .default {} bidForTwo asksForThree 7 = .ok all ∧
      found.oneToOne.Perm all.oneToOne ∧ found.oneToMany = all.oneToMany ∧
      found.oneToMany.length = 1 := by
  have hstored : bookForTwo.find? bidForTwo.id = some bidForTwo := by decide +kernel
  have hothers : asksForThree = bookForTwo.orders.entries.filter fun r => r.id ≠ bidForTwo.id := by
    decide +kernel
  obtain ⟨few, hfew, -⟩ :=
    searchWithCandidates_bidForTwo (List.mem_cons_self : asksForTwo ∈ [asksForTwo, asksForThree])
  obtain ⟨every, hevery, hlength⟩ :=
    searchWithCandidates_bidForTwo
      (List.mem_cons_of_mem _ List.mem_cons_self : asksForThree ∈ [asksForTwo, asksForThree])
  have hsearch : (search ⟨bookForTwo.source, .default, {}⟩ bidForTwo.id 7).1 = .ok few := by
    rw [search_source hstored, findCandidates_bookForTwo]
    exact hfew
  obtain ⟨found, all, hfound, hall, hone, hmany⟩ :=
    search_eq_bruteForce bookForTwo .default {} bidForTwo asksForThree 7 (by decide +kernel)
      (by decide +kernel) hstored (by decide) (.of_eq hothers) (by rw [hsearch]; exact nofun)
      (by rw [hevery]; exact nofun)
  have hlength : all.oneToMany.length = 1 := by
    cases hall.symm.trans hevery
    exact hlength
  exact ⟨found, all, hfound, hall, hone, hmany, hmany ▸ hlength⟩

end Engine

end OrderBook

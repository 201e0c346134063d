import OrderBook.Proofs.Search.Leftovers

/-!
Candidates in another order. The pool of a one-to-many search is sorted, so the order in which its
candidates come does not get into it. The records of single candidates and the orders that are left to
another search come as the candidates do, and each of them depends on its own candidate alone.
-/

namespace OrderBook

variable {α β γ : Type}

theorem map_filterMap_sublist {f : α → Option β} {g : β → γ} {k : α → γ}
    (h : ∀ a b, f a = some b → g b = k a) (l : List α) :
    ((l.filterMap f).map g).Sublist (l.map k) := by
  induction l with
  | nil => exact .slnil
  | cons a l ih =>
    cases hf : f a with
    | none =>
      rw [List.filterMap_cons_none hf]
      exact ih.cons _
    | some b =>
      rw [List.filterMap_cons_some hf, List.map_cons, List.map_cons, h a b hf]
      exact ih.cons_cons _

/-- `ys` are the elements of `xs` in the order in which their orders come among the candidates. -/
structure Rearranged (of : α → Order) (candidates : List ResolvedOrder) (xs ys : List α) : Prop where
  perm : ys.Perm xs
  inOrder : (ys.map of).Sublist (candidates.map (·.order))

namespace OneToOne

variable {chain : PolicyChain} {root candidate : ResolvedOrder} {now : UInt64}
  {candidates others : List ResolvedOrder}

theorem opposingOrder_of_recordWith {m : OneToOneMatch}
    (h : recordWith chain root now candidate = some m) : m.opposingOrder = candidate.order := by
  rw [recordWith] at h
  split at h
  · rename_i found hfound
    subst h
    obtain ⟨-, x, p, clearing, -, -, -, rfl⟩ := matchCandidate_eq_some (forgive_eq_some hfound)
    rfl
  · cases h

theorem search_of_perm (hperm : others.Perm candidates) {ms : List OneToOneMatch}
    (h : search chain root now candidates = .ok ms) :
    ∃ ns, search chain root now others = .ok ns ∧ Rearranged (·.opposingOrder) others ms ns := by
  obtain ⟨hapart, rfl⟩ := search_eq_ok_iff.1 h
  refine ⟨others.filterMap (recordWith chain root now), search_eq_ok_iff.2 ⟨fun c hc => ?_, rfl⟩, ?_, ?_⟩
  · exact hapart c (hperm.subset hc)
  · exact hperm.filterMap _
  · exact map_filterMap_sublist (fun c m => opposingOrder_of_recordWith) others

end OneToOne

namespace Engine

variable {chain : PolicyChain} {config : MatcherConfig} {root : ResolvedOrder} {now : UInt64}
  {candidates others : List ResolvedOrder}

theorem requiresScan_of_perm (hperm : others.Perm candidates) :
    Rearranged id others (requiresScan root candidates) (requiresScan root others) := by
  rw [requiresScan, requiresScan]
  split
  · refine ⟨(hperm.filter _).map _, ?_⟩
    rw [List.map_id]
    exact List.filter_sublist.map _
  · exact ⟨.refl _, List.nil_sublist _⟩

theorem exists_searchWithCandidates {single : List OneToOneMatch} {several : List OneToManyMatch}
    (hsingle : OneToOne.search chain root now candidates = .ok single)
    (hseveral : if config.oneToManyEnabled && root.isEligibleRoot then
        (OneToMany.start chain root candidates now).records = .ok several
      else several = []) :
    ∃ found, searchWithCandidates chain config root candidates now = .ok found ∧
      found.oneToOne = single ∧ found.oneToMany = several := by
  refine ⟨_, bind_eq_ok.2 ⟨single, hsingle, ?_⟩,
    SearchOutcome.parts_append single several (requiresScan root candidates)⟩
  dsimp only
  split
  · rename_i hallowed
    rw [if_pos hallowed] at hseveral
    exact bind_eq_ok.2 ⟨several, hseveral, rfl⟩
  · rename_i hallowed
    rw [if_neg hallowed] at hseveral
    subst hseveral
    rfl

theorem exists_search_of_perm (hids : (candidates.map (·.id)).Nodup) (hperm : others.Perm candidates)
    {found : SearchOutcome} (h : searchWithCandidates chain config root candidates now = .ok found) :
    ∃ again, searchWithCandidates chain config root others now = .ok again ∧
      again.oneToMany = found.oneToMany ∧
      Rearranged (·.opposingOrder) others found.oneToOne again.oneToOne ∧
      Rearranged id others found.requiresScan again.requiresScan := by
  obtain ⟨hsingle, hseveral⟩ := searchWithCandidates_eq_ok h
  obtain ⟨single, hsingle', hrearranged⟩ := OneToOne.search_of_perm hperm hsingle
  have hstart : OneToMany.start chain root others now = OneToMany.start chain root candidates now := by
    rw [OneToMany.start, OneToMany.poolOf_perm hids hperm]
    rfl
  rw [← hstart] at hseveral
  obtain ⟨again, hagain, rfl, hmany⟩ := exists_searchWithCandidates hsingle' hseveral
  refine ⟨again, hagain, hmany, hrearranged, ?_⟩
  rw [requiresScan_of_search h, requiresScan_of_search hagain]
  exact requiresScan_of_perm hperm

/-- The outcome of a search depends on the order of its candidates only in the order in which it lists
the records of single candidates and the orders that are left: that is the order of the candidates, with
nothing added or lost. The records of several candidates stay as they are, and a search that fails does
so in every order. -/
theorem search_in_any_order (chain : PolicyChain) (config : MatcherConfig) (root : ResolvedOrder)
    (now : UInt64) (candidates others : List ResolvedOrder) (hids : (candidates.map (·.id)).Nodup)
    (hperm : others.Perm candidates) :
    (∀ found, searchWithCandidates chain config root candidates now = .ok found →
      ∃ again, searchWithCandidates chain config root others now = .ok again ∧
        again.oneToMany = found.oneToMany ∧
        Rearranged (·.opposingOrder) others found.oneToOne again.oneToOne ∧
        Rearranged id others found.requiresScan again.requiresScan) ∧
    ∀ e, searchWithCandidates chain config root candidates now = .error e ↔
      searchWithCandidates chain config root others now = .error e := by
  have hids' : (others.map (·.id)).Nodup := (hperm.map _).nodup_iff.2 hids
  have hfails : ∀ {xs ys : List ResolvedOrder}, (ys.map (·.id)).Nodup → xs.Perm ys → ∀ {e},
      searchWithCandidates chain config root xs now = .error e →
        searchWithCandidates chain config root ys now = .error e := by
    intro xs ys hys hxs e he
    cases h : searchWithCandidates chain config root ys now with
    | ok found =>
      obtain ⟨again, hagain, -⟩ := exists_search_of_perm hys hxs h
      cases he.symm.trans hagain
    | error e' =>
      -- Only one error can come about.
      obtain rfl : e = .spreadsTooFarApart := failsOnly_searchWithCandidates _ _ _ _ _ e he
      obtain rfl : e' = .spreadsTooFarApart := failsOnly_searchWithCandidates _ _ _ _ _ e' h
      rfl
  exact ⟨fun found => exists_search_of_perm hids hperm,
    fun e => ⟨hfails hids' hperm.symm, hfails hids hperm⟩⟩

open OneToMany (bidForTwo asksForTwo)
open OneToOne (askForBoth)

theorem search_in_any_order_reversed :
    (∃ found again, searchWithCandidates .default {} bidForAny [bundle, askForBoth] 0 = .ok found ∧
      searchWithCandidates .default {} bidForAny [askForBoth, bundle] 0 = .ok again ∧
      found.oneToOne.length = 2 ∧ found.requiresScan.length = 2 ∧
      Rearranged (·.opposingOrder) [askForBoth, bundle] found.oneToOne again.oneToOne ∧
      Rearranged id [askForBoth, bundle] found.requiresScan again.requiresScan) ∧
    ∃ found again, searchWithCandidates .default {} bidForTwo asksForTwo 7 = .ok found ∧
      searchWithCandidates .default {} bidForTwo asksForTwo.reverse 7 = .ok again ∧
      found.oneToMany.length = 1 ∧ again.oneToMany = found.oneToMany := by
  constructor
  · obtain ⟨r, s, hfound⟩ : ∃ r s, searchWithCandidates .default {} bidForAny [bundle, askForBoth] 0 =
        .ok ⟨[.oneToOne r, .oneToOne s], [bundle.order, askForBoth.order]⟩ := ⟨_, _, rfl⟩
    obtain ⟨hsame, -⟩ := search_in_any_order .default {} bidForAny 0 [bundle, askForBoth]
      [askForBoth, bundle] (by decide) (.swap _ _ _)
    obtain ⟨again, hagain, -, hone, hscan⟩ := hsame _ hfound
    exact ⟨_, again, hfound, hagain, rfl, rfl, hone, hscan⟩
  · obtain ⟨found, hfound, hlength⟩ :=
      searchWithCandidates_bidForTwo (List.mem_cons_self : asksForTwo ∈ [asksForTwo, asksForThree])
    obtain ⟨hsame, -⟩ := search_in_any_order .default {} bidForTwo 7 asksForTwo asksForTwo.reverse
      (by decide) (List.reverse_perm _)
    obtain ⟨again, hagain, hmany, -⟩ := hsame found hfound
    exact ⟨found, again, hfound, hagain, hlength, hmany⟩

end Engine

end OrderBook

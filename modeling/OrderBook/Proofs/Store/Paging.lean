import OrderBook.Proofs.Query.Results
import OrderBook.Store.Book

/-!
Paging through a book. A walk reads the results of a query page by page, each page from behind the
last item of the page before, and ends with a page that is not full. Nothing is lost between two
pages and nothing is read twice, whatever the size of a page, and no page is read in vain but the one
that shows that the pages before were all.
-/

namespace OrderBook

variable {b : Book} {q : CandidateQuery}

namespace CandidateQuery

theorem apply_eq_results {items : List OrderItem}
    (h : q.limit = 0 ∨ (q.apply items).length < q.limit) : q.apply items = q.results items := by
  rw [apply] at h ⊢
  split
  · rfl
  · rename_i hlimit
    rw [if_neg hlimit] at h
    have hlt := h.resolve_left hlimit
    rw [List.length_take] at hlt
    exact List.take_of_length_le (by omega)

end CandidateQuery

namespace Book

theorem pages_after (n pageSize : Nat) (hpos : 0 < pageSize) (hle : pageSize ≤ n) :
    (n - pageSize) / pageSize + 1 = n / pageSize :=
  (Nat.div_eq_sub_div hpos hle).symm

/-- The rest of a walk with pages to spare reads the rest of the results. -/
theorem walkPages_source (hids : (b.allItems.map (·.id)).Nodup) {pageSize pages : Nat}
    (hlimit : q.limit = pageSize) (hpages : (q.results b.allItems).length / pageSize < pages) :
    b.source.walkPages pageSize pages q =
      ⟨q.results b.allItems, (q.results b.allItems).length / pageSize + 1, none⟩ := by
  induction pages generalizing q with
  | zero => exact absurd hpages (Nat.not_lt_zero _)
  | succ pages ih =>
    have hpage : b.source.page q = .ok (q.apply b.allItems) := rfl
    rw [OrderSource.walkPages, hpage]
    cases hlast : (q.apply b.allItems).getLast? with
    | none =>
      have hnil : q.apply b.allItems = [] := List.getLast?_eq_none_iff.1 hlast
      have hall : q.results b.allItems = [] := by
        rw [← hnil, CandidateQuery.apply_eq_results]
        rw [hnil, List.length_nil]
        omega
      simp only [hlast, hall, List.length_nil, Nat.zero_div]
    | some last =>
      simp only [hlast]
      by_cases hshort : pageSize = 0 ∨ (q.apply b.allItems).length < pageSize
      · rw [if_pos (by simpa using hshort)]
        have hall : q.apply b.allItems = q.results b.allItems :=
          CandidateQuery.apply_eq_results (hlimit ▸ hshort)
        rw [hall] at hshort ⊢
        rw [Nat.div_eq_zero_iff.2 hshort]
      · rw [if_neg (by simpa using hshort)]
        obtain ⟨before, hbefore⟩ := List.getLast?_eq_some_iff.1 hlast
        have htake : q.apply b.allItems = (q.results b.allItems).take pageSize := by
          rw [CandidateQuery.apply, if_neg (by omega), hlimit]
        have hsplit : q.results b.allItems =
            before ++ last :: (q.results b.allItems).drop pageSize := by
          have h := List.take_append_drop pageSize (q.results b.allItems)
          rw [← htake, hbefore, List.append_assoc] at h
          exact h.symm
        have hrest := CandidateQuery.results_after hids hsplit
        have hlength : ((q.results b.allItems).drop pageSize).length =
            (q.results b.allItems).length - pageSize := List.length_drop
        have hle : (q.apply b.allItems).length ≤ (q.results b.allItems).length := by
          rw [htake, List.length_take]
          exact Nat.min_le_right _ _
        have hcount := pages_after (q.results b.allItems).length pageSize (by omega) (by omega)
        have hwalk := @ih (q.after (q.position last)) hlimit (by rw [hrest, hlength]; omega)
        rw [hrest, hlength, hcount] at hwalk
        have hitems : q.apply b.allItems ++ (q.results b.allItems).drop pageSize =
            q.results b.allItems := by
          rw [htake, List.take_append_drop]
        simp only [hwalk, hitems]

/-- The bound on the pages of a book never ends a walk. -/
theorem pages_lt_pageBound (b : Book) (q : CandidateQuery) (pageSize : Nat) :
    (q.results b.allItems).length / pageSize < b.source.pageBound :=
  Nat.lt_succ_of_le (Nat.le_trans (Nat.div_le_self _ _) (q.length_results_le b.allItems))

theorem walkPages_withLimit (hids : (b.allItems.map (·.id)).Nodup) (q : CandidateQuery)
    {pageSize pages : Nat} (hpages : (q.results b.allItems).length / pageSize < pages) :
    b.source.walkPages pageSize pages (q.withLimit pageSize) =
      ⟨q.results b.allItems, (q.results b.allItems).length / pageSize + 1, none⟩ :=
  walkPages_source (q := q.withLimit pageSize) hids rfl hpages

theorem walk_source (hids : (b.allItems.map (·.id)).Nodup) (q : CandidateQuery) (pageSize : Nat) :
    (b.source.walk q pageSize).items = q.results b.allItems ∧
      (b.source.walk q pageSize).failure = none := by
  rw [OrderSource.walk, walkPages_withLimit hids q (b.pages_lt_pageBound q pageSize)]
  exact ⟨rfl, rfl⟩

/-- Paging cannot be seen. With pages of any size, and with any bound on their number that leaves room
for the last one, a walk is everything the query selects, each item once and in order. -/
theorem walk_eq_apply (hids : (b.allItems.map (·.id)).Nodup) (q : CandidateQuery) (pageSize : Nat) :
    let all := (q.withLimit 0).apply b.allItems
    let reads := if pageSize = 0 then 1 else all.length / pageSize + 1
    b.source.walk q pageSize = ⟨all, reads, none⟩ ∧
      (∀ pages, reads ≤ pages →
        b.source.walkPages pageSize pages (q.withLimit pageSize) = ⟨all, reads, none⟩) ∧
      (∀ i, i ∈ all ↔ i ∈ b.allItems ∧ q.matchesItem i = true ∧ q.isAfterCursor i = true) ∧
      all.Nodup ∧
      all.Pairwise fun i j => compare (q.position i) (q.position j) = .lt := by
  intro all reads
  have hasc : all.Pairwise q.Before := q.results_ascending hids
  have hreads : reads = all.length / pageSize + 1 := by
    simp only [reads]
    split
    · rename_i hzero
      rw [hzero, Nat.div_zero]
    · rfl
  have hwalk : ∀ pages, reads ≤ pages →
      b.source.walkPages pageSize pages (q.withLimit pageSize) = ⟨all, reads, none⟩ := by
    intro pages hpages
    rw [hreads] at hpages ⊢
    exact walkPages_withLimit hids q hpages
  refine ⟨?_, hwalk, ?_, ?_, hasc⟩
  · apply hwalk
    rw [hreads]
    exact b.pages_lt_pageBound q pageSize
  · intro i
    have hmem : i ∈ all ↔ i ∈ b.allItems ∧ q.selects i = true := q.mem_results
    rw [hmem, CandidateQuery.selects, Bool.and_eq_true]
  · refine hasc.imp fun {i j} h e => ?_
    exact q.not_before_self j (e ▸ h)

def askFrom (t : UInt64) (ids : List String) : ResolvedOrder :=
  let price : Decimal := .ofUInt32 1
  let o : Order := { id := toString t, side := .sell, numItems := 1, price := ⟨price, price, t, 100⟩ }
  ⟨o, ids.map (o.item · "c")⟩

def asksByStart : Book := .ofList [askFrom 5 ["d", "a", "c"], askFrom 4 ["e"]]

/-- Asks by start, from behind an item that is not there. -/
def behindB : CandidateQuery where
  filters := [.side .sell]
  orderBy := [.startTime]
  startAfter := some ⟨[.time 5], "b"⟩

/-- Both items behind the start fill a page of two, so an empty one follows. -/
theorem walk_eq_apply_behindB :
    (asksByStart.allItems.map (·.id)).Nodup ∧
      asksByStart.source.walk behindB 2 = ⟨(askFrom 5 ["c", "d"]).items, 2, none⟩ ∧
      asksByStart.source.walk behindB 0 = ⟨(askFrom 5 ["c", "d"]).items, 1, none⟩ := by
  have hids : (asksByStart.allItems.map (·.id)).Nodup := by decide +kernel
  have hall : (behindB.withLimit 0).apply asksByStart.allItems = (askFrom 5 ["c", "d"]).items := by
    refine CandidateQuery.eq_of_ascending (q := behindB) (behindB.results_ascending hids)
      (by decide +kernel) fun i => ?_
    have hselected : (asksByStart.allItems.filter behindB.selects).Perm (askFrom 5 ["c", "d"]).items := by
      decide +kernel
    exact behindB.mem_results.trans (List.mem_filter.symm.trans hselected.mem_iff)
  refine ⟨hids, ?_, ?_⟩
  · rw [(walk_eq_apply hids behindB 2).1, hall]
    rfl
  · rw [(walk_eq_apply hids behindB 0).1, hall]
    rfl

end Book

end OrderBook

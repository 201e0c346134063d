import OrderBook.Proofs.Query.Narrowing
import OrderBook.Proofs.Query.Results

/-!
The order of a query for candidates. Sort keys compare items one after the other, so a key that comes
again decides nothing, and neither does the item id in front of the item id. The query of a chain puts
items in the order of the sort keys of its policies, as often as they name them, and then by id.
-/

namespace OrderBook

namespace SortKey

variable {i j : OrderItem}

def compareItems (keys : List SortKey) (i j : OrderItem) : Ordering :=
  compare (keys.map (·.value i)) (keys.map (·.value j))

theorem compareItems_cons (k : SortKey) (keys : List SortKey) (i j : OrderItem) :
    compareItems (k :: keys) i j = (compare (k.value i) (k.value j)).then (compareItems keys i j) :=
  List.compareLex_cons_cons

theorem compareItems_append (keys others : List SortKey) (i j : OrderItem) :
    compareItems (keys ++ others) i j =
      (compareItems keys i j).then (compareItems others i j) := by
  induction keys with
  | nil => rfl
  | cons k keys ih => rw [List.cons_append, compareItems_cons, ih, compareItems_cons, Ordering.then_assoc]

theorem compare_of_compareItems_eq {k : SortKey} {keys : List SortKey} (hk : k ∈ keys)
    (h : compareItems keys i j = .eq) : compareItems [k] i j = .eq := by
  induction keys with
  | nil => cases hk
  | cons l keys ih =>
    rw [compareItems_cons, Ordering.then_eq_eq] at h
    cases hk with
    | head => rw [compareItems_cons, h.1]; rfl
    | tail _ hk => exact ih hk h.2

theorem compareItems_append_of_mem {k : SortKey} {keys : List SortKey} (hk : k ∈ keys)
    (i j : OrderItem) : compareItems (keys ++ [k]) i j = compareItems keys i j := by
  rw [compareItems_append]
  cases h : compareItems keys i j with
  | lt => rfl
  | eq => exact compare_of_compareItems_eq hk h
  | gt => rfl

theorem compareItems_itemId (i j : OrderItem) : compareItems [.itemId] i j = compare i.id j.id := by
  rw [compareItems_cons]
  exact Ordering.then_eq

end SortKey

open SortKey (compareItems)

theorem Cursor.compare_ofItem (keys : List SortKey) (i j : OrderItem) :
    compare (Cursor.ofItem keys i) (Cursor.ofItem keys j) =
      (compareItems keys i j).then (compare i.id j.id) := rfl

/-- The id decides what is left to decide, so it may as well be the last sort key. -/
theorem Cursor.compare_ofItem_itemId (keys : List SortKey) (i j : OrderItem) :
    compare (Cursor.ofItem (keys ++ [.itemId]) i) (Cursor.ofItem (keys ++ [.itemId]) j) =
      compare (Cursor.ofItem keys i) (Cursor.ofItem keys j) := by
  rw [compare_ofItem, compare_ofItem, SortKey.compareItems_append, SortKey.compareItems_itemId,
    Ordering.then_assoc]
  congr 1
  cases compare i.id j.id <;> rfl

namespace CandidateQuery

theorem compareItems_sortedBy (q : CandidateQuery) (k : SortKey) (i j : OrderItem) :
    compareItems (q.sortedBy k).orderBy i j = compareItems (q.orderBy ++ [k]) i j := by
  rw [sortedBy]
  split
  · rename_i hk
    exact (SortKey.compareItems_append_of_mem hk i j).symm
  · rfl

theorem compareItems_foldl_sortedBy (keys : List SortKey) (q : CandidateQuery) (i j : OrderItem) :
    compareItems (keys.foldl sortedBy q).orderBy i j = compareItems (q.orderBy ++ keys) i j := by
  induction keys generalizing q with
  | nil => rw [List.append_nil]; rfl
  | cons k keys ih =>
    rw [List.foldl_cons, ih, SortKey.compareItems_append, compareItems_sortedBy,
      ← SortKey.compareItems_append, List.append_assoc, List.singleton_append]

end CandidateQuery

namespace PolicyChain

variable {chain : PolicyChain} {items : List OrderItem}

def sortKeys (chain : PolicyChain) : List SortKey := chain.flatMap (·.sortKeys)

def sort (chain : PolicyChain) (items : List OrderItem) : List OrderItem :=
  items.mergeSort fun i j =>
    (compare (Cursor.ofItem chain.sortKeys i) (Cursor.ofItem chain.sortKeys j)).isLE

theorem compare_candidateQuery (chain : PolicyChain) (item : OrderItem) (pageSize : Nat)
    (i j : OrderItem) :
    compare ((chain.candidateQuery item pageSize).position i)
        ((chain.candidateQuery item pageSize).position j) =
      compare (Cursor.ofItem chain.sortKeys i) (Cursor.ofItem chain.sortKeys j) := by
  have hkeys := CandidateQuery.compareItems_foldl_sortedBy chain.sortKeys
    (chain.foldl (fun q (p : Policy) => p.narrow item q) {}) i j
  rw [(foldl_narrow_spec chain item {}).1] at hkeys
  have hlast := CandidateQuery.compareItems_sortedBy (chain.sortKeys.foldl CandidateQuery.sortedBy
    (chain.foldl (fun q (p : Policy) => p.narrow item q) {})) .itemId i j
  rw [SortKey.compareItems_append, hkeys, ← SortKey.compareItems_append] at hlast
  rw [← Cursor.compare_ofItem_itemId]
  exact congrArg (·.then (compare i.id j.id)) hlast

theorem sort_eq_results (chain : PolicyChain) (items : List OrderItem) :
    chain.sort items = ({ orderBy := chain.sortKeys } : CandidateQuery).results items := by
  have hall : items.filter ({ orderBy := chain.sortKeys } : CandidateQuery).selects = items :=
    List.filter_eq_self.2 fun _ _ => rfl
  rw [CandidateQuery.results, hall]
  rfl

/-- Among the items that a test lets through, a query of the chain that hides none of them gives what
sorting gives. -/
theorem filter_results_candidateQuery (hids : (items.map (·.id)).Nodup) {item : OrderItem}
    {pageSize : Nat} {test : OrderItem → Bool}
    (htest : ∀ i, test i = true → (chain.candidateQuery item pageSize).matchesItem i = true) :
    ((chain.candidateQuery item pageSize).results items).filter test =
      (chain.sort items).filter test := by
  rw [sort_eq_results]
  have hascending : (({ orderBy := chain.sortKeys } : CandidateQuery).results items).Pairwise
      (chain.candidateQuery item pageSize).Before := by
    refine (CandidateQuery.results_ascending hids).imp fun {i j} h => ?_
    exact (compare_candidateQuery chain item pageSize i j).trans h
  refine CandidateQuery.eq_of_ascending
    ((CandidateQuery.results_ascending hids).sublist List.filter_sublist)
    (hascending.sublist List.filter_sublist) fun i => ?_
  rw [List.mem_filter, List.mem_filter, CandidateQuery.mem_results, CandidateQuery.mem_results]
  constructor
  · rintro ⟨⟨hi, -⟩, hyes⟩
    exact ⟨⟨hi, rfl⟩, hyes⟩
  · rintro ⟨⟨hi, -⟩, hyes⟩
    refine ⟨⟨hi, ?_⟩, hyes⟩
    rw [CandidateQuery.selects, Bool.and_eq_true, CandidateQuery.isAfterCursor,
      startAfter_candidateQuery]
    exact ⟨htest i hyes, rfl⟩

end PolicyChain

end OrderBook

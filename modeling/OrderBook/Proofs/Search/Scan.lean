import OrderBook.Proofs.Query.Ordering
import OrderBook.Proofs.Search.BruteForce

/-!
What the discovery of candidates comes down to. A scan without queries and pages goes through all
items of a book in the order that the chain wants, keeps those that an item of the root accepts, and
takes their orders as they come first. The discovery finds the same orders in the same sequence, since
its queries hide nothing that is accepted and an order that is known already adds nothing.
-/

namespace OrderBook

namespace PolicyChain

/-- Whether a chain accepts a candidate. One that it fails on is not accepted. -/
def admits (chain : PolicyChain) (item candidate : OrderItem) : Bool :=
  match chain.accepts item candidate with
  | .ok yes => yes
  | .error _ => false

theorem admits_iff {chain : PolicyChain} {item candidate : OrderItem} :
    chain.admits item candidate = true ↔ chain.accepts item candidate = .ok true := by
  rw [admits]
  cases chain.accepts item candidate <;> simp

end PolicyChain

namespace Engine

/-- The items of a book that go together with an item of the root, one item of the root after the
other. -/
def matching (chain : PolicyChain) (b : Book) (items : List OrderItem) : List OrderItem :=
  items.flatMap fun item => (chain.sort b.allItems).filter (chain.admits item)

/-- The candidates of a root as a plain scan finds them. -/
def scan (chain : PolicyChain) (b : Book) (root : ResolvedOrder) : List ResolvedOrder :=
  let ids := (matching chain b root.items).map (·.orderId)
  (ids.filter (· ≠ root.id)).eraseDups.filterMap b.find?

def note (root : String) (found : List String) (id : String) : List String :=
  if id = root ∨ id ∈ found then found else found ++ [id]

theorem foldl_note (root : String) (found ids : List String) :
    ids.foldl (note root) found =
      found ++ (ids.filter fun id => id ≠ root ∧ id ∉ found).eraseDups := by
  induction ids generalizing found with
  | nil => simp
  | cons id ids ih =>
    rw [List.foldl_cons, ih, note]
    by_cases hknown : id = root ∨ id ∈ found
    · have hskip : ¬ (id ≠ root ∧ id ∉ found) := by tauto
      rw [if_pos hknown, List.filter_cons_of_neg (by simpa using hskip)]
    · have hnew : id ≠ root ∧ id ∉ found := by tauto
      rw [if_neg hknown, List.filter_cons_of_pos (by simpa using hnew), List.eraseDups_cons,
        List.filter_filter, List.append_assoc, List.singleton_append]
      congr 3
      refine List.filter_congr fun other _ => ?_
      rw [Bool.eq_iff_iff]
      simp only [decide_eq_true_eq, List.mem_append, List.mem_singleton, Bool.and_eq_true,
        Bool.not_eq_true', beq_eq_false_iff_ne]
      tauto

variable {chain : PolicyChain} {root : String} {item : OrderItem} {found after : List String}

theorem consider_eq_ok {c : OrderItem} (h : consider chain root item found c = .ok after) :
    after = if chain.admits item c then note root found c.orderId else found := by
  rw [consider] at h
  by_cases hknown : c.orderId = root ∨ c.orderId ∈ found
  · rw [if_pos (by simpa using hknown)] at h
    rw [note, if_pos hknown, ite_self]
    exact (pure_eq_ok.1 h).symm
  · rw [if_neg (by simpa using hknown)] at h
    obtain ⟨yes, hyes, h⟩ := bind_eq_ok.1 h
    rw [PolicyChain.admits, hyes, note, if_neg hknown]
    cases yes with
    | false => exact (pure_eq_ok.1 h).symm
    | true => exact (pure_eq_ok.1 h).symm

theorem foldlM_consider {candidates : List OrderItem}
    (h : candidates.foldlM (consider chain root item) found = .ok after) :
    after = ((candidates.filter (chain.admits item)).map (·.orderId)).foldl (note root) found := by
  induction candidates generalizing found with
  | nil => exact (pure_eq_ok.1 h).symm
  | cons c candidates ih =>
    rw [List.foldlM_cons] at h
    obtain ⟨next, hnext, h⟩ := bind_eq_ok.1 h
    rw [ih h, consider_eq_ok hnext]
    cases hadmits : chain.admits item c with
    | false => rw [List.filter_cons_of_neg (by simp [hadmits])]; rfl
    | true => rw [List.filter_cons_of_pos hadmits]; rfl

variable {b : Book} {config : MatcherConfig}

theorem discover_eq_ok (hids : (b.allItems.map (·.id)).Nodup) {items : List OrderItem}
    (h : (discover ⟨b.source, chain, config⟩ root found items).1 = .ok after) :
    after = ((matching chain b items).map (·.orderId)).foldl (note root) found := by
  rw [discover_source hids] at h
  induction items generalizing found with
  | nil => exact (pure_eq_ok.1 h).symm
  | cons item items ih =>
    rw [List.foldlM_cons] at h
    obtain ⟨next, hnext, h⟩ := bind_eq_ok.1 h
    have hfilter : ((chain.candidateQuery item config.pageSize).results b.allItems).filter
        (chain.admits item) = (chain.sort b.allItems).filter (chain.admits item) := by
      refine PolicyChain.filter_results_candidateQuery hids fun c hc => ?_
      exact PolicyChain.candidateQuery_matches (PolicyChain.admits_iff.1 hc) config.pageSize
    rw [ih h, foldlM_consider hnext, hfilter, ← List.foldl_append, ← List.map_append]
    rfl

theorem findCandidates_pageSize (hids : (b.allItems.map (·.id)).Nodup) (root : ResolvedOrder)
    (config other : MatcherConfig) :
    (findCandidates ⟨b.source, chain, other⟩ root).1 =
      (findCandidates ⟨b.source, chain, config⟩ root).1 := by
  have hdiscover : (discover ⟨b.source, chain, other⟩ root.id [] root.items).1 =
      (discover ⟨b.source, chain, config⟩ root.id [] root.items).1 := by
    rw [discover_source hids, discover_source hids]
    rfl
  simp only [findCandidates, hdiscover]

theorem findCandidates_eq_ok (hids : (b.allItems.map (·.id)).Nodup) {r : ResolvedOrder}
    {candidates : List ResolvedOrder}
    (h : (findCandidates ⟨b.source, chain, config⟩ r).1 = .ok candidates) :
    candidates = scan chain b r := by
  obtain ⟨ids, hdiscover, hresolve⟩ := bind_eq_ok.1 h
  rw [Book.resolveAll_source] at hresolve
  rw [discover_eq_ok hids hdiscover, foldl_note] at hresolve
  rw [← Except.ok.inj hresolve, scan]
  simp

/-- The discovery in a book is the scan, with pages of any size. The items of the book have ids of
their own, and no two spreads are so far apart that their difference is no number. -/
theorem findCandidates_eq_scan (b : Book) (chain : PolicyChain) (config : MatcherConfig)
    (root : ResolvedOrder) (hids : (b.allItems.map (·.id)).Nodup) :
    (∀ other, (findCandidates ⟨b.source, chain, other⟩ root).1 =
      (findCandidates ⟨b.source, chain, config⟩ root).1) ∧
    ((findCandidates ⟨b.source, chain, config⟩ root).1 ≠ .error .spreadsTooFarApart →
      (findCandidates ⟨b.source, chain, config⟩ root).1 = .ok (scan chain b root)) := by
  refine ⟨findCandidates_pageSize hids root config, fun hpanic => ?_⟩
  obtain ⟨candidates, hfound⟩ :=
    (failsOnly_findCandidates_source hids root).exists_ok fun e he => by
      rw [show e = _ from he]
      exact hpanic
  rw [hfound, findCandidates_eq_ok hids hfound]

open OneToMany (bidForTwo askForOne)

def bidForRed : ResolvedOrder :=
  let isRed : TraitFilter := ⟨"color", ["red"]⟩
  ⟨bidForTwo.order,
    bidForTwo.items.map fun i => if i.tokenId = some "1" then i.withTraitFilter isRed else i⟩

def askForRed : ResolvedOrder :=
  let r := askForOne "b" "1"
  ⟨r.order, r.items ++ r.items.map fun i => { i.withAttribute "color" "red" with id := "b-red" }⟩

/-- An order that holds an item of an order that is gone. -/
def askOfGone : ResolvedOrder :=
  let r := askForOne "c" "2"
  ⟨r.order, r.items.map fun i => { i with orderId := "gone" }⟩

def bookForRed : Book := .ofList [bidForRed, askForOne "a" "2", askForRed, askOfGone]

/-- The red item is found although the other item of its order is not accepted, and before the ask for
the second token. -/
theorem findCandidates_eq_scan_bidForRed :
    (bookForRed.allItems.map (·.id)).Nodup ∧
      scan .default bookForRed bidForRed = [askForRed, askForOne "a" "2"] ∧
      ∀ config, (findCandidates ⟨bookForRed.source, .default, config⟩ bidForRed).1 =
        .ok [askForRed, askForOne "a" "2"] := by
  have hids : (bookForRed.allItems.map (·.id)).Nodup := by decide +kernel
  have hresults : ∀ i ∈ bidForRed.items,
      (PolicyChain.default.candidateQuery i 500).results bookForRed.allItems =
        bookForRed.allItems.filter (PolicyChain.default.candidateQuery i 500).selects := by
    intro i hi
    apply CandidateQuery.results_eq_filter
    revert i
    decide +kernel
  have hdiscover : (discover ⟨bookForRed.source, .default, {}⟩ bidForRed.id [] bidForRed.items).1 =
      .ok ["b", "a", "gone"] := by
    rw [discover_source hids, foldlM_congr fun i hi found => by rw [hresults i hi]]
    rfl
  have hfound : (findCandidates ⟨bookForRed.source, .default, {}⟩ bidForRed).1 =
      .ok [askForRed, askForOne "a" "2"] := by
    simp only [findCandidates, hdiscover, Except.bind, Book.resolveAll_source]
    rfl
  obtain ⟨hsame, hscan⟩ := findCandidates_eq_scan bookForRed .default {} bidForRed hids
  have hscan := hscan (by simp [hfound])
  rw [hfound] at hsame hscan
  exact ⟨hids, (Except.ok.inj hscan).symm, hsame⟩

end Engine

end OrderBook

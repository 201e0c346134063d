import OrderBook.Policy.Chain
import OrderBook.Proofs.Results

/-!
Narrowed queries. A policy may leave a part of its check to the query for candidates, and then the
query asks for no more than the policy does. So a candidate that is accepted under a chain is one that
the query of the chain matches, and a query never hides a candidate that a check would let through.
What a query lets through is known as well: it makes the demands of all policies, and no others.
-/

namespace OrderBook

theorem sameAddress_comm (a b : String) : sameAddress a b = sameAddress b a := BEq.comm

theorem Policy.require_eq_none {condition : Bool} {m : Mismatch} :
    Policy.require condition m = none ↔ condition = true := by
  cases condition <;> simp [Policy.require]

namespace Policy

variable {p : Policy} {item candidate : OrderItem}

/-- The policies whose check a store can make on its own. -/
def storable : List Policy := [.chain, .side, .status, .collection, .complication, .currency]

/-- What a query demands of a candidate on behalf of a policy: the whole check where a store can make
it, the candidate's half of it for tokens and windows, and nothing for traits and prices. -/
def Demands (p : Policy) (item candidate : OrderItem) : Prop :=
  match p with
  | .token => ∀ t, item.tokenId = some t → candidate.tokenId = some t ∨ candidate.tokenId = none
  | .timeWindow => item.startTime ≤ candidate.endTime
  | .traits | .price => True
  | p => p.check item candidate = .ok none

theorem ok_require {condition : Bool} {m : Mismatch} :
    (.ok (require condition m) : Result (Option Mismatch)) = .ok none ↔ condition = true := by
  rw [Except.ok.injEq, require_eq_none]

theorem check_iff_filter {condition : Bool} {m : Mismatch} {f : QueryFilter}
    (hcheck : p.check item candidate = .ok (require condition m)) (hfilter : p.filter? item = some f)
    (h : condition = f.matchesItem candidate) : p.check item candidate = .ok none ↔
      ∀ g, p.filter? item = some g → g.matchesItem candidate = true := by
  rw [hcheck, ok_require, hfilter, h]
  simp only [Option.some.injEq, forall_eq']

theorem demands_iff : p.Demands item candidate ↔
    ∀ f, p.filter? item = some f → f.matchesItem candidate = true := by
  cases p with
  | chain => exact check_iff_filter rfl rfl BEq.comm
  | side => exact check_iff_filter rfl rfl rfl
  | status => exact check_iff_filter rfl rfl rfl
  | collection => exact check_iff_filter rfl rfl (sameAddress_comm _ _)
  | token =>
    simp only [Demands, filter?, Option.map_eq_some_iff, forall_exists_index, and_imp,
      forall_apply_eq_imp_iff₂]
    refine forall₂_congr fun t _ => ?_
    rw [QueryFilter.matchesItem]
    cases candidate.tokenId <;> simp
  | traits => simp [Demands, filter?]
  | complication => exact check_iff_filter rfl rfl BEq.comm
  | currency => exact check_iff_filter rfl rfl BEq.comm
  | timeWindow => simp [Demands, filter?, QueryFilter.matchesItem]
  | price => simp [Demands, filter?]

theorem demands_of_check (h : p.check item candidate = .ok none) : p.Demands item candidate := by
  cases p with
  | token =>
    intro t ht
    have hmismatch : tokenMismatch? item candidate = none := Except.ok.inj h
    cases hc : candidate.tokenId with
    | none => exact .inr rfl
    | some other =>
      simp only [tokenMismatch?, ht, hc] at hmismatch
      by_cases he : t = other
      · exact .inl (congrArg some he.symm)
      · simp [he] at hmismatch
  | timeWindow =>
    have hoverlap := ok_require.1 h
    have hends : item.startTime ≤ candidate.endTime :=
      of_decide_eq_true (Bool.and_eq_true_iff.1 hoverlap).1
    exact hends
  | traits => exact trivial
  | price => exact trivial
  | _ => exact h

end Policy

namespace CandidateQuery

theorem mem_filters_filter {q : CandidateQuery} {f g : QueryFilter} :
    g ∈ (q.filter f).filters ↔ g ∈ q.filters ∨ g = f := by
  rw [filter]
  split
  · rename_i hf
    exact ⟨.inl, fun h => h.elim id fun e => e ▸ hf⟩
  · simp

theorem sortedBy_spec (q : CandidateQuery) (k : SortKey) :
    (q.sortedBy k).filters = q.filters ∧ (q.sortedBy k).startAfter = q.startAfter := by
  rw [sortedBy]
  split
  · exact ⟨rfl, rfl⟩
  · exact ⟨rfl, rfl⟩

theorem foldl_sortedBy_spec (keys : List SortKey) (q : CandidateQuery) :
    (keys.foldl sortedBy q).filters = q.filters ∧
      (keys.foldl sortedBy q).startAfter = q.startAfter := by
  induction keys generalizing q with
  | nil => exact ⟨rfl, rfl⟩
  | cons k keys ih =>
    obtain ⟨hfilters, hstart⟩ := q.sortedBy_spec k
    exact ⟨(ih _).1.trans hfilters, (ih _).2.trans hstart⟩

end CandidateQuery

namespace PolicyChain

variable {chain : PolicyChain} {item candidate : OrderItem} {f : QueryFilter}

theorem mem_filters_narrow {q : CandidateQuery} {p : Policy} :
    f ∈ (p.narrow item q).filters ↔ f ∈ q.filters ∨ p.filter? item = some f := by
  rw [Policy.narrow]
  cases p.filter? item with
  | none => simp
  | some g => rw [CandidateQuery.mem_filters_filter, Option.some.injEq, eq_comm]

theorem narrow_spec (p : Policy) (item : OrderItem) (q : CandidateQuery) :
    (p.narrow item q).orderBy = q.orderBy ∧ (p.narrow item q).startAfter = q.startAfter := by
  rw [Policy.narrow]
  cases p.filter? item with
  | none => exact ⟨rfl, rfl⟩
  | some f =>
    simp only [CandidateQuery.filter]
    split
    · exact ⟨rfl, rfl⟩
    · exact ⟨rfl, rfl⟩

theorem foldl_narrow_spec (chain : PolicyChain) (item : OrderItem) (q : CandidateQuery) :
    (chain.foldl (fun q (p : Policy) => p.narrow item q) q).orderBy = q.orderBy ∧
      (chain.foldl (fun q (p : Policy) => p.narrow item q) q).startAfter = q.startAfter := by
  induction chain generalizing q with
  | nil => exact ⟨rfl, rfl⟩
  | cons p ps ih =>
    obtain ⟨horder, hstart⟩ := narrow_spec p item q
    exact ⟨(ih _).1.trans horder, (ih _).2.trans hstart⟩

theorem mem_filters_foldl_narrow {q : CandidateQuery} :
    f ∈ (chain.foldl (fun q (p : Policy) => p.narrow item q) q).filters ↔
      f ∈ q.filters ∨ ∃ p ∈ chain, p.filter? item = some f := by
  induction chain generalizing q with
  | nil => simp
  | cons p ps ih => simp [ih, mem_filters_narrow, or_assoc]

theorem mem_filters_candidateQuery {pageSize : Nat} :
    f ∈ (chain.candidateQuery item pageSize).filters ↔ ∃ p ∈ chain, p.filter? item = some f := by
  have hfilters : (chain.candidateQuery item pageSize).filters =
      (chain.foldl (fun q (p : Policy) => p.narrow item q) {}).filters :=
    (CandidateQuery.sortedBy_spec _ _).1.trans (CandidateQuery.foldl_sortedBy_spec _ _).1
  rw [hfilters, mem_filters_foldl_narrow]
  simp

theorem startAfter_candidateQuery (chain : PolicyChain) (item : OrderItem) (pageSize : Nat) :
    (chain.candidateQuery item pageSize).startAfter = none :=
  (CandidateQuery.sortedBy_spec _ _).2.trans
    ((CandidateQuery.foldl_sortedBy_spec _ _).2.trans (foldl_narrow_spec chain item {}).2)

theorem check_of_accepts (h : chain.accepts item candidate = .ok true) :
    ∀ p ∈ chain, p.check item candidate = .ok none := by
  obtain ⟨ms, hms, hempty⟩ := bind_eq_ok.1 h
  have hnil : ms = [] := List.isEmpty_iff.1 (pure_eq_ok.1 hempty)
  subst hnil
  clear h hempty
  induction chain with
  | nil => simp
  | cons q ps ih =>
    obtain ⟨first, hfirst, hms⟩ := bind_eq_ok.1 hms
    obtain ⟨rest, hrest, hms⟩ := bind_eq_ok.1 hms
    obtain ⟨hnone, rfl⟩ := List.append_eq_nil_iff.1 (pure_eq_ok.1 hms)
    intro p hp
    cases hp with
    | head =>
      cases first with
      | none => exact hfirst
      | some m => cases hnone
    | tail _ hp => exact ih hrest p hp

theorem candidateQuery_matches_iff {pageSize : Nat} :
    (chain.candidateQuery item pageSize).matchesItem candidate = true ↔
      ∀ p ∈ chain, p.Demands item candidate := by
  rw [CandidateQuery.matchesItem, List.all_eq_true]
  constructor
  · intro h p hp
    exact Policy.demands_iff.2 fun f hf => h f (mem_filters_candidateQuery.2 ⟨p, hp, hf⟩)
  · intro h f hf
    obtain ⟨p, hp, hfilter⟩ := mem_filters_candidateQuery.1 hf
    exact Policy.demands_iff.1 (h p hp) f hfilter

theorem candidateQuery_matches (h : chain.accepts item candidate = .ok true) (pageSize : Nat) :
    (chain.candidateQuery item pageSize).matchesItem candidate = true :=
  candidateQuery_matches_iff.2 fun p hp => Policy.demands_of_check (check_of_accepts h p hp)

theorem forall_demands_iff : (∀ p ∈ chain, p.Demands item candidate) ↔
    (∀ p ∈ chain, p ∈ Policy.storable → p.check item candidate = .ok none) ∧
    (.token ∈ chain → ∀ t, item.tokenId = some t →
      candidate.tokenId = some t ∨ candidate.tokenId = none) ∧
    (.timeWindow ∈ chain → item.startTime ≤ candidate.endTime) := by
  constructor
  · intro h
    refine ⟨fun p hp hstorable => ?_, h .token, h .timeWindow⟩
    have hdemands := h p hp
    cases p with
    | token => exact absurd hstorable (by decide)
    | timeWindow => exact absurd hstorable (by decide)
    | traits => exact absurd hstorable (by decide)
    | price => exact absurd hstorable (by decide)
    | _ => exact hdemands
  · rintro ⟨hstorable, htoken, hwindow⟩ p hp
    cases p with
    | token => exact htoken hp
    | timeWindow => exact hwindow hp
    | traits => exact trivial
    | price => exact trivial
    | _ => exact hstorable _ hp (by decide)

/-- What a query hides and what it lets through. A candidate that a chain accepts is matched by its
query. A candidate is matched exactly if it passes the checks that a store can make, pins the token of
the item or none where the item pins one, and has a window that does not end before the item's
begins. -/
theorem candidateQuery_agrees (chain : PolicyChain) (pageSize : Nat) (item candidate : OrderItem) :
    (chain.accepts item candidate = .ok true →
      (chain.candidateQuery item pageSize).matchesItem candidate = true) ∧
    ((chain.candidateQuery item pageSize).matchesItem candidate = true ↔
      (∀ p ∈ chain, p ∈ [.chain, .side, .status, .collection, .complication, .currency] →
        p.check item candidate = .ok none) ∧
      (.token ∈ chain → ∀ t, item.tokenId = some t →
        candidate.tokenId = some t ∨ candidate.tokenId = none) ∧
      (.timeWindow ∈ chain → item.startTime ≤ candidate.endTime)) :=
  ⟨fun h => candidateQuery_matches h pageSize, candidateQuery_matches_iff.trans forall_demands_iff⟩

end PolicyChain

end OrderBook

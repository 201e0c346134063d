import OrderBook.Proofs.Order.Contribution
import OrderBook.Proofs.Search.Linking

/-!
Filling a root in turn. The candidates of a queue come one after the other, and each takes a unit of
the first item of the root that it may take and that has one left. Nobody gives a unit back, so
whether the root is filled depends on who comes first.
-/

namespace OrderBook

-- The zero of sums is the literal.
attribute [local instance (high)] Zero.ofOfNat0

/-- A unit of an item of the root, for an item of a candidate, both by position. -/
structure Take where
  item : Nat
  part : Nat
deriving DecidableEq

/-- Candidates in a row, each with the unit that it has taken. -/
abbrev Queue := List (ResolvedOrder × Option Take)

namespace Queue

def served (q : Queue) : List (ResolvedOrder × Take) := q.filterMap fun x => x.2.map (x.1, ·)

theorem served_append (q r : Queue) : served (q ++ r) = served q ++ served r := List.filterMap_append

theorem served_cons_none (r : ResolvedOrder) (q : Queue) : served ((r, none) :: q) = served q := rfl

theorem served_cons_some (r : ResolvedOrder) (t : Take) (q : Queue) :
    served ((r, some t) :: q) = (r, t) :: served q := rfl

theorem served_append_none (done rest : Queue) (r : ResolvedOrder) :
    served (done ++ (r, none) :: rest) = served (done ++ rest) := by
  rw [served_append, served_append, served_cons_none]

theorem map_fst_served_sublist (q : Queue) : ((served q).map Prod.fst).Sublist (q.map Prod.fst) := by
  induction q with
  | nil => exact .slnil
  | cons x q ih =>
    obtain ⟨r, take⟩ := x
    cases take with
    | none => exact ih.cons r
    | some t => exact ih.cons_cons r

def ofPool (pool : List ResolvedOrder) : Queue := pool.map (·, none)

theorem served_ofPool (pool : List ResolvedOrder) : served (ofPool pool) = [] := by
  induction pool with
  | nil => rfl
  | cons r pool ih => exact ih

end Queue

open Queue (served)

def unitsOf (s : List (ResolvedOrder × Take)) (i : Nat) : Nat := s.countP (·.2.item = i)

theorem sum_unitsOf {s : List (ResolvedOrder × Take)} {n : Nat} (h : ∀ x ∈ s, x.2.item < n) :
    ((List.range n).map (unitsOf s)).sum = s.length := by
  have hcount : ∀ p : ResolvedOrder × Take → Bool, sumWhere p (fun _ => 1) s = s.countP p := by
    intro p
    rw [sumWhere_eq_countP p fun _ _ => Nat.le_refl 1]
    simp
  have hsum := sum_map_sumWhere (fun x : ResolvedOrder × Take => x.2.item) (fun _ => 1) s
    (List.nodup_range : (List.range n).Nodup)
  rw [List.map_congr_left fun i _ => hcount _, hcount] at hsum
  refine hsum.trans (List.countP_eq_length.2 fun x hx => ?_)
  simpa using h x hx

/-- Whether an item of the root and an item of a candidate can share a unit. -/
def mayShare (chain : PolicyChain) (a b : OrderItem) : Bool :=
  chain.agrees a b && decide (0 < a.maxContribution ∧ 0 < b.maxContribution)

def offers (chain : PolicyChain) (root r : ResolvedOrder) : List Take :=
  r.items.zipIdx.flatMap fun b => root.items.zipIdx.filterMap fun a =>
    if mayShare chain a.1 b.1 then some ⟨a.2, b.2⟩ else none

theorem mem_offers {chain : PolicyChain} {root r : ResolvedOrder} {t : Take} :
    t ∈ offers chain root r ↔ ∃ a b, root.items[t.item]? = some a ∧ r.items[t.part]? = some b ∧
      mayShare chain a b = true := by
  simp only [offers, List.mem_flatMap, List.mem_filterMap, Prod.exists, List.mem_zipIdx_iff_getElem?]
  constructor
  · rintro ⟨b, j, hb, a, i, ha, h⟩
    split at h
    · rename_i hshare
      cases h
      exact ⟨a, b, ha, hb, hshare⟩
    · cases h
  · rintro ⟨a, b, ha, hb, hshare⟩
    exact ⟨b, t.part, hb, a, t.item, ha, if_pos hshare⟩

theorem item_lt_of_mem {chain : PolicyChain} {root r : ResolvedOrder} {t : Take}
    (ht : t ∈ offers chain root r) : t.item < root.items.length := by
  obtain ⟨a, -, ha, -⟩ := mem_offers.1 ht
  exact (List.getElem?_eq_some_iff.1 ha).1

theorem pairwise_zipIdx {α : Type} (l : List α) :
    l.zipIdx.Pairwise fun x y => x.2 ≠ y.2 := by
  have hnodup : (l.zipIdx.map Prod.snd).Nodup := by
    rw [List.zipIdx_map_snd]
    exact List.nodup_range'
  exact List.pairwise_map.1 hnodup

theorem nodup_offers (chain : PolicyChain) (root r : ResolvedOrder) :
    (offers chain root r).Nodup := by
  refine List.nodup_flatMap.2 ⟨fun b _ => ?_, (pairwise_zipIdx r.items).imp fun {b c} hne => ?_⟩
  · refine (pairwise_zipIdx root.items).filterMap _ fun a a' hne t ht t' ht' => ?_
    obtain ⟨-, ht⟩ := Option.ite_none_right_eq_some.1 ht
    obtain ⟨-, ht'⟩ := Option.ite_none_right_eq_some.1 ht'
    cases ht
    cases ht'
    exact fun e => hne (congrArg Take.item e)
  · intro t ht ht'
    obtain ⟨a, -, ht⟩ := List.mem_filterMap.1 ht
    obtain ⟨a', -, ht'⟩ := List.mem_filterMap.1 ht'
    obtain ⟨-, ht⟩ := Option.ite_none_right_eq_some.1 ht
    obtain ⟨-, ht'⟩ := Option.ite_none_right_eq_some.1 ht'
    cases ht
    exact hne (congrArg Take.part (Option.some.inj ht')).symm

def hasLeft (root : ResolvedOrder) (s : List (ResolvedOrder × Take)) (t : Take) : Bool :=
  (root.items[t.item]?).any fun a => unitsOf s t.item < a.maxContribution.toNat

/-- Has the candidates of a queue take their units in turn, behind those that are done. Who has a unit
keeps it. -/
def serve (chain : PolicyChain) (root : ResolvedOrder) (done : Queue) : Queue → Queue
  | [] => done
  | (r, some t) :: rest => serve chain root (done ++ [(r, some t)]) rest
  | (r, none) :: rest =>
    let take := (offers chain root r).find? (hasLeft root (served (done ++ rest)))
    serve chain root (done ++ [(r, take)]) rest

/-- The queue of a pool after everybody had a turn. -/
def serveAll (chain : PolicyChain) (root : ResolvedOrder) (pool : List ResolvedOrder) : Queue :=
  serve chain root [] (Queue.ofPool pool)

/-- The queue after the first candidate has left with its unit and the others had another turn. -/
def serveOthers (chain : PolicyChain) (root : ResolvedOrder) (pool : List ResolvedOrder) : Queue :=
  serve chain root [] (serveAll chain root pool).tail

/-! What serving keeps -/

variable {chain : PolicyChain} {root : ResolvedOrder}

/-- Units are taken where they may be, and no item of the root gives more than it can. -/
structure Queue.Fair (chain : PolicyChain) (root : ResolvedOrder) (q : Queue) : Prop where
  offered : ∀ x ∈ served q, x.2 ∈ offers chain root x.1
  within : ∀ i a, root.items[i]? = some a → unitsOf (served q) i ≤ a.maxContribution.toNat

theorem map_fst_serve (done q : Queue) :
    (serve chain root done q).map Prod.fst = done.map Prod.fst ++ q.map Prod.fst := by
  induction q generalizing done with
  | nil => rw [serve, List.map_nil, List.append_nil]
  | cons x q ih =>
    obtain ⟨r, take⟩ := x
    cases take with
    | none => rw [serve, ih, List.map_append, List.append_assoc]; rfl
    | some t => rw [serve, ih, List.map_append, List.append_assoc]; rfl

theorem map_fst_serveAll (chain : PolicyChain) (root : ResolvedOrder) (pool : List ResolvedOrder) :
    (serveAll chain root pool).map Prod.fst = pool := by
  rw [serveAll, map_fst_serve, Queue.ofPool, List.map_map]
  exact List.map_id pool

theorem exists_cons_serveAll (chain : PolicyChain) (root r : ResolvedOrder)
    (rest : List ResolvedOrder) : ∃ x others, serveAll chain root (r :: rest) = x :: others := by
  refine List.exists_cons_of_ne_nil fun hnil => ?_
  have hmap := map_fst_serveAll chain root (r :: rest)
  rw [hnil] at hmap
  cases hmap

namespace Queue.Fair

theorem ofPool (pool : List ResolvedOrder) : Fair chain root (Queue.ofPool pool) := by
  refine ⟨?_, ?_⟩
  · intro x hx
    rw [served_ofPool] at hx
    cases hx
  · intro i a _
    rw [served_ofPool]
    exact Nat.zero_le _

theorem tail {q : Queue} (h : Fair chain root q) : Fair chain root q.tail := by
  have hsub : (served q.tail).Sublist (served q) := (List.tail_sublist q).filterMap _
  refine ⟨fun x hx => h.offered x (hsub.subset hx), fun i a ha => ?_⟩
  exact Nat.le_trans hsub.countP_le (h.within i a ha)

theorem take {done rest : Queue} {r : ResolvedOrder} {t : Take}
    (h : Fair chain root (done ++ (r, none) :: rest)) (ht : t ∈ offers chain root r)
    (hleft : hasLeft root (served (done ++ rest)) t = true) :
    Fair chain root (done ++ (r, some t) :: rest) := by
  obtain ⟨hoffered, hwithin⟩ := h
  rw [served_append_none, served_append] at hoffered hwithin
  rw [served_append] at hleft
  refine ⟨?_, ?_⟩
  · rw [served_append, served_cons_some]
    intro x hx
    rcases List.mem_append.1 hx with hx | hx
    · exact hoffered x (List.mem_append_left _ hx)
    · rcases List.mem_cons.1 hx with rfl | hx
      · exact ht
      · exact hoffered x (List.mem_append_right _ hx)
  · rw [served_append, served_cons_some]
    intro i a ha
    have hle := hwithin i a ha
    simp only [unitsOf, List.countP_append, List.countP_cons] at hle ⊢
    by_cases hi : t.item = i
    · subst hi
      simp only [hasLeft, ha, Option.any_some, decide_eq_true_eq, unitsOf, List.countP_append] at hleft
      simp only [decide_true, if_true]
      omega
    · simp only [hi, decide_false, Bool.false_eq_true, if_false]
      exact hle

theorem turn {done rest : Queue} {r : ResolvedOrder} {take : Option Take}
    (h : Fair chain root (done ++ (r, none) :: rest))
    (htake : (offers chain root r).find? (hasLeft root (served (done ++ rest))) = take) :
    Fair chain root (done ++ (r, take) :: rest) := by
  cases take with
  | none => exact h
  | some t => exact h.take (List.mem_of_find?_eq_some htake) (List.find?_some htake)

theorem serve {done q : Queue} (h : Fair chain root (done ++ q)) :
    Fair chain root (serve chain root done q) := by
  induction q generalizing done with
  | nil => rwa [List.append_nil] at h
  | cons x q ih =>
    obtain ⟨r, take⟩ := x
    cases take with
    | some t =>
      refine ih ?_
      rwa [List.append_assoc]
    | none =>
      refine ih ?_
      rw [List.append_assoc, List.singleton_append]
      exact h.turn rfl

theorem serveAll (pool : List ResolvedOrder) : Fair chain root (serveAll chain root pool) :=
  (ofPool pool).serve

theorem item_lt {q : Queue} (h : Fair chain root q) :
    ∀ x ∈ served q, x.2.item < root.items.length := fun x hx => item_lt_of_mem (h.offered x hx)

theorem unitsOf_eq {q : Queue} (h : Fair chain root q) (hroot : root.isEligibleRoot = true)
    (hlength : root.order.numItems.toNat ≤ (served q).length) {i : Nat} {a : OrderItem}
    (ha : root.items[i]? = some a) : unitsOf (served q) i = a.maxContribution.toNat := by
  refine ResolvedOrder.bound_eq_of_sum hroot h.within ?_ ha
  rw [sum_unitsOf h.item_lt]
  exact hlength

theorem length_lt {q : Queue} (h : Fair chain root q) (hroot : root.isEligibleRoot = true) {t : Take}
    (hleft : hasLeft root (served q) t = true) : (served q).length < root.order.numItems.toNat := by
  obtain ⟨a, ha, hlt⟩ := (Option.any_eq_true _ _).1 hleft
  by_contra hge
  have heq := h.unitsOf_eq hroot (Nat.not_lt.1 hge) ha
  have hlt := of_decide_eq_true hlt
  omega

end Queue.Fair

/-- Where the root is filled, another turn changes nothing. -/
theorem serve_of_filled {done q : Queue} (hfair : Queue.Fair chain root (done ++ q))
    (hroot : root.isEligibleRoot = true)
    (hlength : root.order.numItems.toNat ≤ (served (done ++ q)).length) :
    serve chain root done q = done ++ q := by
  induction q generalizing done with
  | nil => rw [serve, List.append_nil]
  | cons x q ih =>
    obtain ⟨r, take⟩ := x
    have hassoc : done ++ (r, take) :: q = (done ++ [(r, take)]) ++ q := by
      rw [List.append_assoc, List.singleton_append]
    cases take with
    | some t =>
      rw [serve, ih (hassoc ▸ hfair) (hassoc ▸ hlength), hassoc]
    | none =>
      have hnone : (offers chain root r).find? (hasLeft root (served (done ++ q))) = none := by
        refine List.find?_eq_none.2 fun t _ hleft => ?_
        rw [← Queue.served_append_none done q r] at hleft
        have := hfair.length_lt hroot hleft
        omega
      simp only [serve, hnone]
      rw [ih (hassoc ▸ hfair) (hassoc ▸ hlength), hassoc]

/-! What fills a root -/

/-- Candidates of a pool that fill a root, each with its unit: one that the two items can share. -/
structure Fills (chain : PolicyChain) (root : ResolvedOrder) (pool : List ResolvedOrder)
    (s : List (ResolvedOrder × Take)) : Prop where
  members : (s.map Prod.fst).Sublist pool
  shared : ∀ x ∈ s, ∃ a b, root.items[x.2.item]? = some a ∧ x.1.items[x.2.part]? = some b ∧
    chain.mutualMatch a b = .ok true ∧ 0 < a.maxContribution ∧ 0 < b.maxContribution
  /-- Every item of the root gives all that it can. -/
  used : ∀ i a, root.items[i]? = some a → unitsOf s i = a.maxContribution.toNat

theorem fills_iff {pool : List ResolvedOrder} {s : List (ResolvedOrder × Take)} :
    Fills chain root pool s ↔ (s.map Prod.fst).Sublist pool ∧
      (∀ x ∈ s, x.2 ∈ offers chain root x.1) ∧
      ∀ i < root.items.length, unitsOf s i = root.bound i := by
  have hshared : ∀ x : ResolvedOrder × Take, x.2 ∈ offers chain root x.1 ↔
      ∃ a b, root.items[x.2.item]? = some a ∧ x.1.items[x.2.part]? = some b ∧
        chain.mutualMatch a b = .ok true ∧ 0 < a.maxContribution ∧ 0 < b.maxContribution := by
    intro x
    simp only [mem_offers, mayShare, Bool.and_eq_true, PolicyChain.agrees_iff, decide_eq_true_eq]
  simp only [hshared]
  constructor
  · intro h
    refine ⟨h.members, h.shared, fun i hi => ?_⟩
    have ha := List.getElem?_eq_getElem hi
    rw [h.used i _ ha, ResolvedOrder.bound_eq ha]
  · rintro ⟨hmembers, hshared, hused⟩
    refine ⟨hmembers, hshared, fun i a ha => ?_⟩
    rw [hused i (List.getElem?_eq_some_iff.1 ha).1, ResolvedOrder.bound_eq ha]

instance (chain : PolicyChain) (root : ResolvedOrder) (pool : List ResolvedOrder)
    (s : List (ResolvedOrder × Take)) : Decidable (Fills chain root pool s) :=
  decidable_of_iff _ fills_iff.symm

theorem Fills.offered {pool : List ResolvedOrder} {s : List (ResolvedOrder × Take)}
    (h : Fills chain root pool s) : ∀ x ∈ s, x.2 ∈ offers chain root x.1 := (fills_iff.1 h).2.1

theorem Fills.length_eq {pool : List ResolvedOrder} {s : List (ResolvedOrder × Take)}
    (h : Fills chain root pool s) (hroot : root.isEligibleRoot = true) :
    s.length = root.order.numItems.toNat := by
  have hlt : ∀ x ∈ s, x.2.item < root.items.length := fun x hx => item_lt_of_mem (h.offered x hx)
  rw [← sum_unitsOf hlt, ← ResolvedOrder.sum_bound hroot]
  exact congrArg List.sum (List.map_congr_left fun i hi =>
    (fills_iff.1 h).2.2 i (List.mem_range.1 hi))

theorem Queue.Fair.fills {q : Queue} {pool : List ResolvedOrder} (h : Fair chain root q)
    (hpool : (q.map Prod.fst).Sublist pool)
    (hused : ∀ i a, root.items[i]? = some a → a.maxContribution.toNat ≤ unitsOf (served q) i) :
    Fills chain root pool (served q) := by
  refine fills_iff.2 ⟨(map_fst_served_sublist q).trans hpool, h.offered, fun i hi => ?_⟩
  have ha := List.getElem?_eq_getElem hi
  rw [ResolvedOrder.bound_eq ha]
  exact Nat.le_antisymm (h.within i _ ha) (hused i _ ha)

theorem Queue.Fair.fills_iff {q : Queue} {pool : List ResolvedOrder} (h : Fair chain root q)
    (hroot : root.isEligibleRoot = true) (hpool : (q.map Prod.fst).Sublist pool) :
    Fills chain root pool (served q) ↔ (served q).length = root.order.numItems.toNat := by
  constructor
  · exact fun hfills => hfills.length_eq hroot
  · intro hlength
    exact h.fills hpool fun i a ha =>
      Nat.le_of_eq (h.unitsOf_eq hroot (Nat.le_of_eq hlength.symm) ha).symm

/-! Candidates without a choice -/

/-- No candidate of the pool may take units of two items of the root. -/
def Unambiguous (chain : PolicyChain) (root : ResolvedOrder) (pool : List ResolvedOrder) : Prop :=
  ∀ r ∈ pool, ∀ t ∈ offers chain root r, ∀ u ∈ offers chain root r, t.item = u.item

instance (chain : PolicyChain) (root : ResolvedOrder) (pool : List ResolvedOrder) :
    Decidable (Unambiguous chain root pool) :=
  inferInstanceAs (Decidable (∀ r ∈ pool, ∀ t ∈ offers chain root r, ∀ u ∈ offers chain root r,
    t.item = u.item))

/-- Who has no unit found none left of what it may take. -/
def Queue.Content (chain : PolicyChain) (root : ResolvedOrder) (s : List (ResolvedOrder × Take))
    (q : Queue) : Prop :=
  ∀ r, (r, none) ∈ q → ∀ t ∈ offers chain root r, hasLeft root s t = false

theorem hasLeft_eq_false_of_le {s s' : List (ResolvedOrder × Take)} {t : Take}
    (hle : unitsOf s t.item ≤ unitsOf s' t.item) (h : hasLeft root s t = false) :
    hasLeft root s' t = false := by
  rw [hasLeft] at h ⊢
  cases ha : root.items[t.item]? with
  | none => rfl
  | some a =>
    rw [ha] at h
    simp only [Option.any_some, decide_eq_false_iff_not] at h ⊢
    omega

theorem unitsOf_take_le (done rest : Queue) (r : ResolvedOrder) (take : Option Take) (i : Nat) :
    unitsOf (served (done ++ (r, none) :: rest)) i ≤ unitsOf (served (done ++ (r, take) :: rest)) i := by
  cases take with
  | none => exact Nat.le_refl _
  | some t =>
    rw [Queue.served_append, Queue.served_append, Queue.served_cons_some, Queue.served_cons_none]
    exact (List.sublist_cons_self _ _).append_left _ |>.countP_le

theorem Queue.Content.turn {done rest : Queue} {r : ResolvedOrder} {take : Option Take}
    (h : Queue.Content chain root (served (done ++ (r, none) :: rest)) done)
    (htake : (offers chain root r).find? (hasLeft root (served (done ++ rest))) = take) :
    Queue.Content chain root (served (done ++ (r, take) :: rest)) (done ++ [(r, take)]) := by
  intro c hc u hu
  refine hasLeft_eq_false_of_le (unitsOf_take_le done rest r take u.item) ?_
  rcases List.mem_append.1 hc with hc | hc
  · exact h c hc u hu
  · obtain ⟨rfl, rfl⟩ := Prod.mk.inj (List.mem_singleton.1 hc)
    rw [Queue.served_append_none]
    simpa using List.find?_eq_none.1 htake u hu

theorem Queue.Content.keep {s : List (ResolvedOrder × Take)} {done : Queue}
    (h : Queue.Content chain root s done) (r : ResolvedOrder) (t : Take) :
    Queue.Content chain root s (done ++ [(r, some t)]) := by
  intro c hc
  rcases List.mem_append.1 hc with hc | hc
  · exact h c hc
  · cases List.mem_singleton.1 hc

theorem content_serve {done q : Queue} (h : Queue.Content chain root (served (done ++ q)) done) :
    Queue.Content chain root (served (serve chain root done q)) (serve chain root done q) := by
  induction q generalizing done with
  | nil => rwa [List.append_nil] at h
  | cons x q ih =>
    obtain ⟨r, take⟩ := x
    cases take with
    | some t =>
      refine ih ?_
      rw [List.append_assoc, List.singleton_append]
      exact h.keep r t
    | none =>
      refine ih ?_
      rw [List.append_assoc, List.singleton_append]
      exact h.turn rfl

theorem unitsOf_served (q : Queue) (i : Nat) :
    unitsOf (served q) i = q.countP fun x => x.2.any (·.item = i) := by
  induction q with
  | nil => rfl
  | cons x q ih =>
    obtain ⟨r, take⟩ := x
    cases take with
    | none =>
      rw [Queue.served_cons_none, ih, List.countP_cons]
      simp
    | some t =>
      rw [Queue.served_cons_some, unitsOf, List.countP_cons, List.countP_cons, ← ih]
      rfl

def mayTake (chain : PolicyChain) (root : ResolvedOrder) (i : Nat) (r : ResolvedOrder) : Bool :=
  (offers chain root r).any (·.item = i)

theorem mayTake_iff {i : Nat} {r : ResolvedOrder} :
    mayTake chain root i r = true ↔ ∃ t ∈ offers chain root r, t.item = i := by
  simp [mayTake]

theorem unitsOf_le_countP {s : List (ResolvedOrder × Take)}
    (hoffered : ∀ x ∈ s, x.2 ∈ offers chain root x.1) (i : Nat) :
    unitsOf s i ≤ (s.map Prod.fst).countP (mayTake chain root i) := by
  rw [unitsOf, List.countP_map]
  refine List.countP_mono_left fun x hx hi => ?_
  exact mayTake_iff.2 ⟨x.2, hoffered x hx, of_decide_eq_true hi⟩

/-- Where nobody has a choice and everybody who may take a unit of an item has some unit, these are
units of the item. -/
theorem Unambiguous.countP_le_unitsOf {pool : List ResolvedOrder} {q : Queue} {i : Nat}
    (hone : Unambiguous chain root pool) (hpool : ∀ x ∈ q, x.1 ∈ pool)
    (hoffered : ∀ x ∈ served q, x.2 ∈ offers chain root x.1)
    (hserved : ∀ x ∈ q, mayTake chain root i x.1 = true → x.2 ≠ none) :
    (q.map Prod.fst).countP (mayTake chain root i) ≤ unitsOf (served q) i := by
  rw [unitsOf_served, List.countP_map]
  refine List.countP_mono_left fun x hx hmay => ?_
  obtain ⟨u, hu⟩ := Option.ne_none_iff_exists'.1 (hserved x hx hmay)
  obtain ⟨t, ht, hi⟩ := mayTake_iff.1 hmay
  have hoffer := hoffered (x.1, u) (List.mem_filterMap.2 ⟨x, hx, by rw [hu]; rfl⟩)
  rw [hu]
  exact decide_eq_true ((hone x.1 (hpool x hx) u hoffer t ht).trans hi)

theorem Queue.Content.ne_none {q : Queue} {i : Nat} {a : OrderItem}
    (h : Queue.Content chain root (served q) q) (ha : root.items[i]? = some a)
    (hlt : unitsOf (served q) i < a.maxContribution.toNat) :
    ∀ x ∈ q, mayTake chain root i x.1 = true → x.2 ≠ none := by
  rintro ⟨r, take⟩ hx hmay rfl
  obtain ⟨t, ht, rfl⟩ := mayTake_iff.1 hmay
  have hnone := h r hx t ht
  rw [hasLeft, ha] at hnone
  exact of_decide_eq_false hnone hlt

/-- Where no candidate has a choice, serving in turn fills the root if anything does. -/
theorem Unambiguous.fills_serveAll {pool : List ResolvedOrder} {s : List (ResolvedOrder × Take)}
    (hone : Unambiguous chain root pool) (h : Fills chain root pool s) :
    Fills chain root pool (served (serveAll chain root pool)) := by
  have hfair : Queue.Fair chain root (serveAll chain root pool) := .serveAll pool
  have hcontent : Queue.Content chain root (served (serveAll chain root pool))
      (serveAll chain root pool) := content_serve fun _ hr => absurd hr List.not_mem_nil
  have hmap := map_fst_serveAll chain root pool
  generalize serveAll chain root pool = q at hfair hcontent hmap ⊢
  refine hfair.fills (hmap ▸ List.Sublist.refl _) fun i a ha => ?_
  by_contra hlt
  have hpool : ∀ x ∈ q, x.1 ∈ pool := fun x hx => hmap ▸ List.mem_map_of_mem hx
  -- A unit is left, so whoever may take it has taken one, and these are enough.
  have htook := hcontent.ne_none ha (Nat.not_le.1 hlt)
  have hcount : unitsOf s i ≤ unitsOf (served q) i := calc
    unitsOf s i ≤ (s.map Prod.fst).countP (mayTake chain root i) := unitsOf_le_countP h.offered i
    _ ≤ (q.map Prod.fst).countP (mayTake chain root i) := (hmap ▸ h.members).countP_le
    _ ≤ unitsOf (served q) i := hone.countP_le_unitsOf hpool hfair.offered htook
  rw [h.used i a ha] at hcount
  exact hlt hcount

end OrderBook

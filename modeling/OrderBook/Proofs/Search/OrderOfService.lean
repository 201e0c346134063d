import OrderBook.Proofs.Search.QueuePasses

/-!
Nobody is passed over. A candidate takes its unit when its turn comes, and until then nobody behind it
has one of what it may take. So whoever waits after a round waits for items that are used up, and all
of their units went to candidates in front of it.
-/

namespace OrderBook

-- The zero of sums is the literal.
attribute [local instance (high)] Zero.ofOfNat0

open Queue (served)

variable {chain : PolicyChain} {root r : ResolvedOrder} {pool : List ResolvedOrder} {i j n : Nat}
  {t : Take} {done rest q : Queue}

/-- If the first one waits for a unit, the second one has none that the first one may take. -/
def GoesFirst (chain : PolicyChain) (root : ResolvedOrder) (x y : ResolvedOrder × Option Take) : Prop :=
  x.2 = none → ∀ t ∈ offers chain root x.1, ∀ u, y.2 = some u → u.item ≠ t.item

/-- Nobody has a unit that someone in front of it may take and waits for. -/
def Queue.Ordered (chain : PolicyChain) (root : ResolvedOrder) (q : Queue) : Prop :=
  q.Pairwise (GoesFirst chain root)

theorem hasLeft_congr {s : List (ResolvedOrder × Take)} {u : Take} (h : t.item = u.item) :
    hasLeft root s t = hasLeft root s u := by
  rw [hasLeft, hasLeft, h]

/-! What serving keeps -/

namespace Queue.Ordered

theorem ofPool (pool : List ResolvedOrder) : Ordered chain root (Queue.ofPool pool) := by
  refine List.pairwise_map.2 (List.pairwise_of_forall fun r s => ?_)
  intro _ t _ u hu
  cases hu

theorem tail (h : Ordered chain root q) : Ordered chain root q.tail := List.Pairwise.tail h

theorem turn {take : Option Take} (h : Ordered chain root (done ++ (r, none) :: rest))
    (hcontent : Content chain root (served (done ++ (r, none) :: rest)) done)
    (htake : (offers chain root r).find? (hasLeft root (served (done ++ rest))) = take) :
    Ordered chain root (done ++ (r, take) :: rest) := by
  cases take with
  | none => exact h
  | some t =>
    obtain ⟨hdone, hrest, hacross⟩ := List.pairwise_append.1 h
    refine List.pairwise_append.2 ⟨hdone, ?_, fun x hx y hy => ?_⟩
    · refine List.pairwise_cons.2 ⟨fun y _ hnone => ?_, (List.pairwise_cons.1 hrest).2⟩
      cases hnone
    · rcases List.mem_cons.1 hy with rfl | hy
      · intro hnone v hv u hu hitem
        cases hu
        obtain ⟨c, take⟩ := x
        cases hnone
        have hleft := List.find?_some htake
        have hused := hcontent c hx v hv
        rw [served_append_none, ← hasLeft_congr hitem, hleft] at hused
        cases hused
      · exact hacross x hx y (List.mem_cons_of_mem _ hy)

theorem serve (h : Ordered chain root (done ++ q))
    (hcontent : Content chain root (served (done ++ q)) done) :
    Ordered chain root (serve chain root done q) := by
  induction q generalizing done with
  | nil => rwa [List.append_nil] at h
  | cons x q ih =>
    obtain ⟨r, take⟩ := x
    have hassoc : ∀ take : Option Take, done ++ [(r, take)] ++ q = done ++ (r, take) :: q := by
      intro take
      rw [List.append_assoc, List.singleton_append]
    cases take with
    | some t =>
      refine ih ?_ ?_
      · rwa [hassoc]
      · rw [hassoc]
        exact hcontent.keep r t
    | none =>
      refine ih ?_ ?_
      · rw [hassoc]
        exact h.turn hcontent rfl
      · rw [hassoc]
        exact hcontent.turn rfl

theorem lt_of_waits (h : q.Ordered chain root) {k : Nat} {x : ResolvedOrder × Option Take}
    {u : Take} (hj : q[j]? = some (r, none)) (ht : t ∈ offers chain root r) (hk : q[k]? = some x)
    (hu : x.2 = some u) (hitem : u.item = t.item) : k < j := by
  obtain ⟨hjlt, hjget⟩ := List.getElem?_eq_some_iff.1 hj
  obtain ⟨hklt, hkget⟩ := List.getElem?_eq_some_iff.1 hk
  rcases Nat.lt_trichotomy k j with hlt | heq | hgt
  · exact hlt
  · subst heq
    rw [hj] at hk
    cases hk
    cases hu
  · have hgoes := List.pairwise_iff_getElem.1 h j k hjlt hklt hgt
    rw [hjget, hkget] at hgoes
    exact absurd hitem (hgoes rfl t ht u hu)

end Queue.Ordered

/-- A queue in which everybody has had a turn. -/
structure Queue.Settled (chain : PolicyChain) (root : ResolvedOrder) (q : Queue) : Prop where
  fair : q.Fair chain root
  ordered : q.Ordered chain root
  content : q.Content chain root (served q)

namespace Queue.Settled

theorem serve (hfair : Fair chain root q) (hordered : Ordered chain root q) :
    Settled chain root (serve chain root [] q) where
  fair := Fair.serve hfair
  ordered := Ordered.serve hordered fun _ hr => absurd hr List.not_mem_nil
  content := content_serve fun _ hr => absurd hr List.not_mem_nil

theorem serveAll (pool : List ResolvedOrder) : Settled chain root (serveAll chain root pool) :=
  .serve (.ofPool pool) (.ofPool pool)

theorem used_up (h : Settled chain root q) (hr : (r, none) ∈ q) (ht : t ∈ offers chain root r)
    {a : OrderItem} (ha : root.items[t.item]? = some a) :
    unitsOf (served q) t.item = a.maxContribution.toNat := by
  have hnone := h.content r hr t ht
  rw [hasLeft, ha] at hnone
  exact Nat.le_antisymm (h.fair.within _ _ ha) (Nat.not_lt.1 (of_decide_eq_false hnone))

theorem unitsOf_take (h : Settled chain root q) (hj : q[j]? = some (r, none))
    (ht : t ∈ offers chain root r) : unitsOf (served (q.take j)) t.item = unitsOf (served q) t.item := by
  obtain ⟨hlt, hget⟩ := List.getElem?_eq_some_iff.1 hj
  have hsplit : q.take j ++ (r, none) :: q.drop (j + 1) = q := by
    rw [← hget, List.getElem_cons_drop, List.take_append_drop]
  have hordered := h.ordered
  rw [← hsplit] at hordered
  have hbehind := (List.pairwise_cons.1 (List.pairwise_append.1 hordered).2.1).1
  have hzero : unitsOf (served (q.drop (j + 1))) t.item = 0 := by
    rw [unitsOf_served, List.countP_eq_zero]
    intro y hy hitem
    obtain ⟨u, hu, hitem⟩ := (Option.any_eq_true _ _).1 hitem
    exact hbehind y hy rfl t ht u hu (of_decide_eq_true hitem)
  conv_rhs => rw [← hsplit, served_append_none, served_append, unitsOf, List.countP_append]
  exact (Nat.add_eq_left.2 hzero).symm

theorem offered_take (h : Settled chain root q) (j : Nat) :
    ∀ x ∈ served (q.take j), x.2 ∈ offers chain root x.1 := by
  intro x hx
  exact h.fair.offered x (((List.take_sublist j q).filterMap _).subset hx)

theorem ne_none_of_take (h : Settled chain root q) (hj : q[j]? = some (r, some t)) :
    ∀ x ∈ q.take j, mayTake chain root t.item x.1 = true → x.2 ≠ none := by
  rintro ⟨c, take⟩ hx hmay rfl
  obtain ⟨k, hk⟩ := List.mem_iff_getElem?.1 hx
  rw [List.getElem?_take] at hk
  obtain ⟨hlt, hk⟩ := Option.ite_none_right_eq_some.1 hk
  obtain ⟨u, hu, hitem⟩ := mayTake_iff.1 hmay
  exact Nat.lt_asymm hlt (h.ordered.lt_of_waits hk hu hj rfl hitem.symm)

theorem unitsOf_take_lt (hj : q[j]? = some (r, some t)) :
    unitsOf (served (q.take j)) t.item < unitsOf (served q) t.item := by
  obtain ⟨hlt, hget⟩ := List.getElem?_eq_some_iff.1 hj
  conv_rhs => rw [← List.take_append_drop j q, List.drop_eq_getElem_cons hlt, hget, served_append,
    served_cons_some, unitsOf, List.countP_append]
  exact Nat.lt_add_of_pos_right (List.countP_pos_iff.2 ⟨(r, t), List.mem_cons_self, decide_eq_true rfl⟩)

section Unambiguous

variable (h : Settled chain root q) (hone : Unambiguous chain root pool)
  (hpool : q.map Prod.fst = pool)

include h hone hpool

/-- Where nobody has a choice, whoever may take a unit has one, unless as many as there are units come
before. -/
theorem served_iff : (∃ r t, q[j]? = some (r, some t)) ↔
    ∃ i a r, root.items[i]? = some a ∧ pool[j]? = some r ∧ mayTake chain root i r = true ∧
      (pool.take j).countP (mayTake chain root i) < a.maxContribution.toNat := by
  have hget : pool[j]? = q[j]?.map Prod.fst := by rw [← hpool, List.getElem?_map]
  have htake : pool.take j = (q.take j).map Prod.fst := by rw [← hpool, List.map_take]
  have hmem : ∀ x ∈ q.take j, x.1 ∈ pool := fun x hx =>
    hpool ▸ List.mem_map_of_mem (List.mem_of_mem_take hx)
  rw [hget, htake]
  constructor
  · rintro ⟨r, t, hj⟩
    have ht := h.fair.offered (r, t) (List.mem_filterMap.2 ⟨_, List.mem_of_getElem? hj, rfl⟩)
    obtain ⟨a, -, ha, -⟩ := mem_offers.1 ht
    refine ⟨t.item, a, r, ha, by rw [hj]; rfl, mayTake_iff.2 ⟨t, ht, rfl⟩, ?_⟩
    calc
      _ ≤ unitsOf (served (q.take j)) t.item :=
        hone.countP_le_unitsOf hmem (h.offered_take j) (h.ne_none_of_take hj)
      _ < unitsOf (served q) t.item := unitsOf_take_lt hj
      _ ≤ a.maxContribution.toNat := h.fair.within _ _ ha
  · rintro ⟨i, a, r, ha, hr, hmay, hlt⟩
    obtain ⟨⟨s, take⟩, hj, hs⟩ := Option.map_eq_some_iff.1 hr
    obtain rfl : s = r := hs
    cases take with
    | some t => exact ⟨s, t, hj⟩
    | none =>
      obtain ⟨t, ht, rfl⟩ := mayTake_iff.1 hmay
      have hused := h.used_up (List.mem_of_getElem? hj) ht ha
      have hle := unitsOf_le_countP (h.offered_take j) t.item
      have hsub := (map_fst_served_sublist (q.take j)).countP_le (p := mayTake chain root t.item)
      rw [h.unitsOf_take hj ht] at hle
      omega

theorem length_eq_iff (hroot : root.isEligibleRoot = true) :
    (served q).length = root.order.numItems.toNat ↔ ∀ i a, root.items[i]? = some a →
      a.maxContribution.toNat ≤ pool.countP (mayTake chain root i) := by
  have hsub : (q.map Prod.fst).Sublist pool := hpool ▸ List.Sublist.refl _
  rw [← h.fair.fills_iff hroot hsub]
  constructor
  · intro hfills i a ha
    rw [← hfills.used i a ha]
    exact Nat.le_trans (unitsOf_le_countP hfills.offered i) hfills.members.countP_le
  · intro henough
    refine h.fair.fills hsub fun i a ha => ?_
    by_contra hlt
    have hmem : ∀ x ∈ q, x.1 ∈ pool := fun x hx => hpool ▸ List.mem_map_of_mem hx
    have hcount := hone.countP_le_unitsOf hmem h.fair.offered (h.content.ne_none ha (Nat.not_le.1 hlt))
    rw [hpool] at hcount
    exact hlt (Nat.le_trans (henough i a ha) hcount)

end Unambiguous

end Queue.Settled

namespace FlowPass

variable {p : FlowPass}

theorem links_build (hroot : root.isEligibleRoot = true) (hpool : ∀ r ∈ pool, r.order.numItems = 1)
    (hp : build chain root pool = .ok p) :
    p.links i j = true ↔ ∃ r, pool[j]? = some r ∧ mayTake chain root i r = true := by
  have f := follows_build hroot hpool hp
  rw [f.sound.links_iff, f.lanes]
  simp only [mem_queueLanes, mayTake_iff, Queue.ofPool, List.getElem?_map, Option.map_eq_some_iff]
  constructor
  · rintro ⟨l, ⟨k, x, t, ⟨r, hr, rfl⟩, ht, rfl⟩, rfl, rfl⟩
    exact ⟨r, by rwa [Take.lane, Nat.zero_add], t, ht, rfl⟩
  · rintro ⟨r, hr, t, ht, rfl⟩
    exact ⟨_, ⟨j, _, t, ⟨r, hr, rfl⟩, ht, rfl⟩, rfl, Nat.zero_add j⟩

theorem countP_links (hroot : root.isEligibleRoot = true) (hpool : ∀ r ∈ pool, r.order.numItems = 1)
    (hp : build chain root pool = .ok p) (i : Nat) (hj : j ≤ pool.length) :
    (List.range j).countP (p.links i) = (pool.take j).countP (mayTake chain root i) := by
  have hlength : (pool.take j).length = j := List.length_take_of_le hj
  conv_lhs => rw [← hlength]
  refine countP_range fun k r hr => ?_
  have hr : pool[k]? = some r := by
    rw [List.getElem?_take] at hr
    exact (Option.ite_none_right_eq_some.1 hr).2
  rw [Bool.eq_iff_iff, links_build hroot hpool hp, hr]
  simp only [Option.some.injEq, exists_eq_left']

theorem mem_take_linkedTo (hroot : root.isEligibleRoot = true)
    (hpool : ∀ r ∈ pool, r.order.numItems = 1) (hp : build chain root pool = .ok p) {b : Nat} :
    j ∈ (p.linkedTo i).take b ↔ ∃ r, pool[j]? = some r ∧ mayTake chain root i r = true ∧
      (pool.take j).countP (mayTake chain root i) < b := by
  rw [linkedTo, mem_take_filter_range, links_build hroot hpool hp, (sound_build hp).layout.length_eq]
  constructor
  · rintro ⟨hj, ⟨r, hr, hmay⟩, hlt⟩
    rw [countP_links hroot hpool hp i (Nat.le_of_lt hj)] at hlt
    exact ⟨r, hr, hmay, hlt⟩
  · rintro ⟨r, hr, hmay, hlt⟩
    have hj := (List.getElem?_eq_some_iff.1 hr).1
    rw [← countP_links hroot hpool hp i (Nat.le_of_lt hj)] at hlt
    exact ⟨hj, ⟨r, hr, hmay⟩, hlt⟩

theorem length_linkedTo (hroot : root.isEligibleRoot = true)
    (hpool : ∀ r ∈ pool, r.order.numItems = 1) (hp : build chain root pool = .ok p) (i : Nat) :
    (p.linkedTo i).length = pool.countP (mayTake chain root i) := by
  rw [linkedTo, ← List.countP_eq_length_filter, (sound_build hp).layout.length_eq,
    countP_links hroot hpool hp i (Nat.le_refl _), List.take_length]

end FlowPass

end OrderBook

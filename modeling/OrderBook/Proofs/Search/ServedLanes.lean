import OrderBook.Proofs.Search.Serving
import OrderBook.Proofs.Search.SilentCandidates

/-!
Rounds of flow as turns of a queue. Where every candidate asks for one token, a lane carries a unit or
nothing, so the lanes of a pass say no more than which candidate has taken which unit. A round over
such lanes gives every candidate its turn.
-/

namespace OrderBook

-- The zero of sums is the literal.
attribute [local instance (high)] Zero.ofOfNat0

open Queue (served)

variable {chain : PolicyChain} {root r : ResolvedOrder} {pool : List ResolvedOrder} {n j : Nat}
  {t : Take} {take : Option Take} {done rest q : Queue}

/-- The lane of an offer to the candidate at position `j`, which may have taken it. -/
def Take.lane (j : Nat) (take : Option Take) (t : Take) : Lane where
  item := t.item
  candidate := j
  part := t.part
  capacity := 1
  flow := if take = some t then 1 else 0

def entryLanes (chain : PolicyChain) (root : ResolvedOrder) (j : Nat)
    (x : ResolvedOrder × Option Take) : List Lane :=
  (offers chain root x.1).map (Take.lane j x.2)

/-- The lanes to the candidates of a queue, of which the first one stands at position `n`. -/
def queueLanes (chain : PolicyChain) (root : ResolvedOrder) (n : Nat) : Queue → List Lane
  | [] => []
  | x :: q => entryLanes chain root n x ++ queueLanes chain root (n + 1) q

theorem queueLanes_append (n : Nat) (q rest : Queue) : queueLanes chain root n (q ++ rest) =
    queueLanes chain root n q ++ queueLanes chain root (n + q.length) rest := by
  induction q generalizing n with
  | nil => rfl
  | cons x q ih =>
    rw [List.cons_append, queueLanes, ih, queueLanes, List.append_assoc, List.length_cons,
      Nat.add_comm q.length, Nat.add_assoc]

theorem mem_queueLanes {l : Lane} : l ∈ queueLanes chain root n q ↔
    ∃ k x t, q[k]? = some x ∧ t ∈ offers chain root x.1 ∧ l = t.lane (n + k) x.2 := by
  induction q generalizing n with
  | nil => simp [queueLanes]
  | cons x q ih =>
    rw [queueLanes, List.mem_append, entryLanes, List.mem_map, ih]
    constructor
    · rintro (⟨t, ht, rfl⟩ | ⟨k, y, t, hk, ht, rfl⟩)
      · exact ⟨0, x, t, rfl, ht, rfl⟩
      · exact ⟨k + 1, y, t, hk, ht, by rw [Nat.add_assoc, Nat.add_comm 1]⟩
    · rintro ⟨k, y, t, hk, ht, rfl⟩
      cases k with
      | zero =>
        cases hk
        exact .inl ⟨t, ht, rfl⟩
      | succ k => exact .inr ⟨k, y, t, hk, ht, by rw [Nat.add_assoc, Nat.add_comm 1]⟩

/-! The lanes at the start -/

theorem min_one_eq {a b r : Nat} (hr : 0 < r) :
    min (min a r) (min b 1) = if 0 < a ∧ 0 < b then 1 else 0 := by
  split <;> omega

theorem newLane?_eq (hroot : 0 < root.order.numItems.toNat) (hone : r.order.numItems = 1)
    (b a : OrderItem × Nat) : FlowPass.newLane? chain root r j b a =
      if mayShare chain a.1 b.1 then some (Take.lane j none ⟨a.2, b.2⟩) else none := by
  have hnum : r.order.numItems.toNat = 1 := by rw [hone]; rfl
  have hpos : ∀ m : UInt32, 0 < m ↔ 0 < m.toNat := fun m => UInt32.lt_iff_toNat_lt
  simp only [FlowPass.newLane?, mayShare, hnum, min_one_eq hroot, hpos]
  by_cases h : 0 < a.1.maxContribution.toNat ∧ 0 < b.1.maxContribution.toNat
  · simp [h, Take.lane]
  · simp [h]

theorem builtLanes_eq (hroot : 0 < root.order.numItems.toNat)
    (hpool : ∀ r ∈ pool, r.order.numItems = 1) (n : Nat) :
    FlowPass.builtLanes chain root n pool = queueLanes chain root n (.ofPool pool) := by
  induction pool generalizing n with
  | nil => rfl
  | cons r pool ih =>
    have hentry : FlowPass.orderLanes chain root n r = entryLanes chain root n (r, none) := by
      rw [FlowPass.orderLanes, entryLanes, offers, List.map_flatMap]
      refine List.flatMap_congr fun b _ => ?_
      rw [List.map_filterMap]
      refine List.filterMap_congr fun a _ => ?_
      rw [newLane?_eq hroot (hpool r List.mem_cons_self)]
      split
      · rfl
      · rfl
    rw [FlowPass.builtLanes_cons, hentry, ih fun x hx => hpool x (List.mem_cons_of_mem _ hx)]
    rfl

/-! Flow as units -/

theorem sumWhere_eq_zero {β : Type} {p : β → Bool} {f : β → Nat} {l : List β}
    (h : ∀ x ∈ l, p x = true → f x = 0) : sumWhere p f l = 0 := by
  induction l with
  | nil => rfl
  | cons x l ih =>
    rw [sumWhere_cons, ih fun y hy => h y (List.mem_cons_of_mem _ hy), Nat.add_zero,
      ite_eq_right_iff]
    exact h x List.mem_cons_self

theorem sumWhere_entryLanes_none (p : Lane → Bool) (j : Nat) (r : ResolvedOrder) :
    sumWhere p (·.flow) (entryLanes chain root j (r, none)) = 0 := by
  rw [entryLanes, sumWhere_map]
  exact sumWhere_eq_zero fun t _ _ => rfl

theorem sumWhere_entryLanes_some (p : Lane → Bool) (j : Nat) (ht : t ∈ offers chain root r) :
    sumWhere p (·.flow) (entryLanes chain root j (r, some t)) =
      if p (t.lane j (some t)) then 1 else 0 := by
  obtain ⟨before, after, hsplit⟩ := List.append_of_mem ht
  have hnodup := nodup_offers chain root r
  rw [hsplit, List.nodup_middle, List.nodup_cons] at hnodup
  have hother : ∀ u ∈ before ++ after, (Take.lane j (some t) u).flow = 0 := by
    intro u hu
    have hne : t ≠ u := fun e => hnodup.1 (e ▸ hu)
    simp [Take.lane, hne]
  have hbefore := sumWhere_eq_zero fun u hu (_ : p (Take.lane j (some t) u) = true) =>
    hother u (List.mem_append_left after hu)
  have hafter := sumWhere_eq_zero fun u hu (_ : p (Take.lane j (some t) u) = true) =>
    hother u (List.mem_append_right before hu)
  rw [entryLanes, sumWhere_map, hsplit, sumWhere_append, sumWhere_cons, hbefore, hafter]
  simp [Take.lane]

theorem sumWhere_queueLanes (hoffered : ∀ x ∈ served q, x.2 ∈ offers chain root x.1) (n : Nat)
    (p : Nat → Bool) : sumWhere (fun l => p l.item) (·.flow) (queueLanes chain root n q) =
      (served q).countP fun x => p x.2.item := by
  induction q generalizing n with
  | nil => rfl
  | cons x q ih =>
    obtain ⟨r, take⟩ := x
    rw [queueLanes, sumWhere_append]
    cases take with
    | none =>
      rw [ih hoffered, sumWhere_entryLanes_none, Nat.zero_add]
      rfl
    | some t =>
      rw [Queue.served_cons_some] at hoffered ⊢
      have ht := hoffered _ List.mem_cons_self
      rw [ih fun x hx => hoffered x (List.mem_cons_of_mem _ hx), sumWhere_entryLanes_some _ _ ht,
        List.countP_cons, Nat.add_comm]
      rfl

theorem candidate_of_mem {l : Lane} (hl : l ∈ queueLanes chain root n q) :
    n ≤ l.candidate ∧ l.candidate < n + q.length := by
  induction q generalizing n with
  | nil => cases hl
  | cons x q ih =>
    rw [List.length_cons]
    rcases List.mem_append.1 hl with hl | hl
    · obtain ⟨t, -, rfl⟩ := List.mem_map.1 hl
      simp only [Take.lane]
      omega
    · have := ih hl
      omega

theorem sumWhere_candidate {x : ResolvedOrder × Option Take} {p : Lane → Bool}
    (hp : ∀ l, p l = true → l.candidate = n + done.length) :
    sumWhere p (·.flow) (queueLanes chain root n (done ++ x :: rest)) =
      sumWhere p (·.flow) (entryLanes chain root (n + done.length) x) := by
  have hdone : sumWhere p (·.flow) (queueLanes chain root n done) = 0 :=
    sumWhere_eq_zero fun l hl hpl => by
      have := candidate_of_mem hl
      have := hp l hpl
      omega
  have hrest : sumWhere p (·.flow) (queueLanes chain root (n + done.length + 1) rest) = 0 :=
    sumWhere_eq_zero fun l hl hpl => by
      have := candidate_of_mem hl
      have := hp l hpl
      omega
  rw [queueLanes_append, queueLanes, sumWhere_append, sumWhere_append, hdone, hrest]
  omega

/-! What a lane can take -/

/-- The candidates of a queue are those of the pool from position `n` on, and each asks for one
token. -/
structure StandsIn (pool : List ResolvedOrder) (n : Nat) (q : Queue) : Prop where
  drop : pool.drop n = q.map Prod.fst
  single : ∀ r ∈ pool, r.order.numItems = 1

theorem StandsIn.withTake {other : Option Take} (h : StandsIn pool n (done ++ (r, other) :: rest))
    (take : Option Take) : StandsIn pool n (done ++ (r, take) :: rest) := by
  refine ⟨h.drop.trans ?_, h.single⟩
  rw [List.map_append, List.map_append, List.map_cons, List.map_cons]

theorem StandsIn.getElem? (h : StandsIn pool n (done ++ (r, take) :: rest)) :
    pool[n + done.length]? = some r := by
  rw [← List.getElem?_drop, h.drop, List.getElem?_map]
  simp

theorem offered_of_mem (h : Queue.Fair chain root (done ++ (r, take) :: rest)) :
    ∀ t, take = some t → t ∈ offers chain root r := by
  rintro t rfl
  refine h.offered (r, t) ?_
  rw [Queue.served_append, Queue.served_cons_some]
  exact List.mem_append_right _ List.mem_cons_self

theorem supply_lane (h : Queue.Fair chain root q) {a : OrderItem} (ha : root.items[t.item]? = some a)
    (take : Option Take) : (t.lane j take).supply root (queueLanes chain root n q) =
      min (a.maxContribution.toNat - unitsOf (served q) t.item)
        (root.order.numItems.toNat - (served q).length) := by
  have hitem := sumWhere_queueLanes h.offered n fun i => decide (i = t.item)
  have htotal := sumWhere_queueLanes h.offered n fun _ => true
  rw [List.countP_true] at htotal
  rw [Lane.supply, show (t.lane j take).item = t.item from rfl, ha]
  exact congrArg₂ min (congrArg _ hitem) (congrArg _ htotal)

theorem demand_lane (h : Queue.Fair chain root (done ++ (r, take) :: rest))
    (hstands : StandsIn pool n (done ++ (r, take) :: rest)) {b : OrderItem}
    (hb : r.items[t.part]? = some b) (hpos : 0 < b.maxContribution) :
    (t.lane (n + done.length) take).demand pool
        (queueLanes chain root n (done ++ (r, take) :: rest)) = if take.isSome then 0 else 1 := by
  have hr := hstands.getElem?
  have hone : r.order.numItems.toNat = 1 := by
    rw [hstands.single r (List.mem_of_getElem? hr)]
    rfl
  have hpos := UInt32.lt_iff_toNat_lt.1 hpos
  rw [Lane.demand, show (t.lane (n + done.length) take).candidate = n + done.length from rfl,
    show (t.lane (n + done.length) take).part = t.part from rfl, hr]
  simp only [hb]
  rw [hone, sumWhere_candidate fun l hl => (of_decide_eq_true hl).1,
    sumWhere_candidate fun l hl => of_decide_eq_true hl]
  cases take with
  | none =>
    rw [sumWhere_entryLanes_none, sumWhere_entryLanes_none]
    exact Nat.min_eq_right hpos
  | some u =>
    rw [sumWhere_entryLanes_some (fun l => decide (l.candidate = n + done.length)) _
      (offered_of_mem h u rfl)]
    simp [Take.lane]

theorem fitting_lane (h : Queue.Fair chain root (done ++ (r, take) :: rest))
    (hroot : root.isEligibleRoot = true) (hstands : StandsIn pool n (done ++ (r, take) :: rest))
    (ht : t ∈ offers chain root r) :
    (t.lane (n + done.length) take).fitting root pool
        (queueLanes chain root n (done ++ (r, take) :: rest)) =
      if take = none ∧ hasLeft root (served (done ++ rest)) t = true then 1 else 0 := by
  obtain ⟨a, b, ha, hb, hshare⟩ := mem_offers.1 ht
  have hpos := (of_decide_eq_true (Bool.and_eq_true_iff.1 hshare).2).2
  rw [Lane.fitting, supply_lane h ha, demand_lane h hstands hb hpos]
  cases take with
  | some u => simp
  | none =>
    have hroom := h.length_lt hroot (t := t)
    rw [Queue.served_append_none] at hroom ⊢
    have hleft : hasLeft root (served (done ++ rest)) t = true ↔
        unitsOf (served (done ++ rest)) t.item < a.maxContribution.toNat := by
      rw [hasLeft, ha]
      exact decide_eq_true_iff
    have hcapacity : (t.lane (n + done.length) none).capacity - (t.lane (n + done.length) none).flow =
        1 := rfl
    simp only [hcapacity, Option.isSome_none, Bool.false_eq_true, if_false, true_and]
    split
    · rename_i hyes
      have := hleft.1 hyes
      have := hroom hyes
      omega
    · rename_i hno
      have := mt hleft.2 hno
      omega

/-! A round -/

theorem roundLanes_blocked {done blocked rest : List Lane}
    (h : ∀ l ∈ blocked, l.fitting root pool (done ++ (blocked ++ rest)) = 0) :
    roundLanes root pool done (blocked ++ rest) = roundLanes root pool (done ++ blocked) rest := by
  induction blocked generalizing done with
  | nil => rw [List.append_nil, List.nil_append]
  | cons l blocked ih =>
    have hl := h l List.mem_cons_self
    have hsame : l.addFlow 0 = l := rfl
    rw [List.cons_append] at hl ⊢
    simp only [roundLanes, hl, hsame, Nat.zero_add]
    have hassoc : done ++ l :: (blocked ++ rest) = (done ++ [l]) ++ (blocked ++ rest) := by
      rw [List.append_assoc, List.singleton_append]
    rw [ih fun m hm => hassoc ▸ h m (List.mem_cons_of_mem _ hm), List.append_assoc,
      List.singleton_append]

theorem roundLanes_pushed {done before after rest : List Lane} {l m : Lane} (hm : l.addFlow 1 = m)
    (hbefore : ∀ k ∈ before, k.fitting root pool (done ++ (before ++ l :: after ++ rest)) = 0)
    (hl : l.fitting root pool (done ++ (before ++ l :: after ++ rest)) = 1)
    (hafter : ∀ k ∈ after, k.fitting root pool (done ++ (before ++ m :: after ++ rest)) = 0) :
    let next := roundLanes root pool (done ++ (before ++ m :: after)) rest
    roundLanes root pool done (before ++ l :: after ++ rest) = (next.1, 1 + next.2) := by
  have hassoc : ∀ k : Lane, done ++ (before ++ k :: after ++ rest) =
      done ++ before ++ k :: (after ++ rest) := by
    intro k
    simp only [List.append_assoc, List.cons_append]
  have hlast : done ++ before ++ m :: (after ++ rest) = done ++ before ++ [m] ++ (after ++ rest) := by
    simp only [List.append_assoc, List.cons_append, List.nil_append]
  rw [hassoc] at hl
  rw [List.append_assoc, List.cons_append, roundLanes_blocked]
  · simp only [roundLanes, hl, hm]
    rw [roundLanes_blocked]
    · simp only [List.append_assoc, List.cons_append, List.nil_append]
    · intro k hk
      rw [← hlast, ← hassoc]
      exact hafter k hk
  · intro k hk
    have h := hbefore k hk
    rwa [List.append_assoc, List.cons_append] at h

/-- The lanes of a candidate that takes an offer: what it has passed over, what it takes, and what it
has no more use for. -/
theorem entryLanes_split {before after : List Take} (h : offers chain root r = before ++ t :: after)
    (j : Nat) : entryLanes chain root j (r, none) =
        before.map (Take.lane j none) ++ t.lane j none :: after.map (Take.lane j (some t)) ∧
      entryLanes chain root j (r, some t) =
        before.map (Take.lane j none) ++ t.lane j (some t) :: after.map (Take.lane j (some t)) := by
  have hnodup := nodup_offers chain root r
  rw [h, List.nodup_middle, List.nodup_cons] at hnodup
  have hother : ∀ u ∈ before ++ after, Take.lane j (some t) u = Take.lane j none u := by
    intro u hu
    have hne : t ≠ u := fun e => hnodup.1 (e ▸ hu)
    simp [Take.lane, hne]
  have hbefore : before.map (Take.lane j (some t)) = before.map (Take.lane j none) :=
    List.map_congr_left fun u hu => hother u (List.mem_append_left _ hu)
  have hafter : after.map (Take.lane j (some t)) = after.map (Take.lane j none) :=
    List.map_congr_left fun u hu => hother u (List.mem_append_right _ hu)
  rw [entryLanes, entryLanes, h, List.map_append, List.map_append, List.map_cons, List.map_cons,
    hbefore, hafter]
  exact ⟨rfl, rfl⟩

theorem roundLanes_idle (h : ∀ t ∈ offers chain root r, (t.lane (n + done.length) take).fitting root
      pool (queueLanes chain root n (done ++ (r, take) :: rest)) = 0) :
    roundLanes root pool (queueLanes chain root n done)
        (queueLanes chain root (n + done.length) ((r, take) :: rest)) =
      roundLanes root pool (queueLanes chain root n (done ++ [(r, take)]))
        (queueLanes chain root (n + done.length + 1) rest) := by
  rw [queueLanes, roundLanes_blocked, queueLanes_append]
  · rw [queueLanes, queueLanes, List.append_nil]
  · intro l hl
    obtain ⟨t, ht, rfl⟩ := List.mem_map.1 hl
    have hfit := h t ht
    rwa [queueLanes_append, queueLanes] at hfit

section Turns

variable (hroot : root.isEligibleRoot = true)

include hroot

theorem roundLanes_taken (h : Queue.Fair chain root (done ++ (r, none) :: rest))
    (hstands : StandsIn pool n (done ++ (r, none) :: rest))
    (htake : (offers chain root r).find? (hasLeft root (served (done ++ rest))) = some t) :
    let next := roundLanes root pool (queueLanes chain root n (done ++ [(r, some t)]))
      (queueLanes chain root (n + done.length + 1) rest)
    roundLanes root pool (queueLanes chain root n done)
        (queueLanes chain root (n + done.length) ((r, none) :: rest)) = (next.1, 1 + next.2) := by
  obtain ⟨hleft, before, after, hsplit, hbefore⟩ := List.find?_eq_some_iff_append.1 htake
  have hoffer : ∀ u, u ∈ before ∨ u = t ∨ u ∈ after → u ∈ offers chain root r := by
    intro u hu
    rw [hsplit, List.mem_append, List.mem_cons]
    exact hu
  have hfit : ∀ u ∈ offers chain root r, (u.lane (n + done.length) none).fitting root pool
      (queueLanes chain root n (done ++ (r, none) :: rest)) =
        if hasLeft root (served (done ++ rest)) u = true then 1 else 0 := by
    intro u hu
    rw [fitting_lane h hroot hstands hu]
    simp only [true_and]
  have hafter : ∀ u ∈ after, (u.lane (n + done.length) (some t)).fitting root pool
      (queueLanes chain root n (done ++ (r, some t) :: rest)) = 0 := by
    intro u hu
    have hfair := h.take (hoffer t (.inr (.inl rfl))) hleft
    rw [fitting_lane hfair hroot (hstands.withTake (some t)) (hoffer u (.inr (.inr hu)))]
    simp
  obtain ⟨hnone, hsome⟩ := entryLanes_split hsplit (n + done.length)
  rw [queueLanes_append, queueLanes, hnone] at hfit
  rw [queueLanes_append, queueLanes, hsome] at hafter
  rw [queueLanes, hnone, queueLanes_append, queueLanes, queueLanes, List.append_nil, hsome]
  refine roundLanes_pushed ?_ ?_ ?_ ?_
  · simp [Lane.addFlow, Take.lane]
  · intro l hl
    obtain ⟨u, hu, rfl⟩ := List.mem_map.1 hl
    have hno : ¬ hasLeft root (served (done ++ rest)) u = true := by simpa using hbefore u hu
    rw [hfit u (hoffer u (.inl hu)), if_neg hno]
  · rw [hfit t (hoffer t (.inr (.inl rfl))), if_pos hleft]
  · intro l hl
    obtain ⟨u, hu, rfl⟩ := List.mem_map.1 hl
    exact hafter u hu

theorem roundLanes_turn (h : Queue.Fair chain root (done ++ (r, none) :: rest))
    (hstands : StandsIn pool n (done ++ (r, none) :: rest))
    (htake : (offers chain root r).find? (hasLeft root (served (done ++ rest))) = take) :
    let next := roundLanes root pool (queueLanes chain root n (done ++ [(r, take)]))
      (queueLanes chain root (n + done.length + 1) rest)
    roundLanes root pool (queueLanes chain root n done)
        (queueLanes chain root (n + done.length) ((r, none) :: rest)) =
      (next.1, (if take.isSome then 1 else 0) + next.2) := by
  cases take with
  | some t => exact roundLanes_taken hroot h hstands htake
  | none =>
    have hnone := List.find?_eq_none.1 htake
    rw [roundLanes_idle fun u hu => by
      rw [fitting_lane h hroot hstands hu, if_neg fun hyes => hnone u hu hyes.2]]
    simp

/-- A round gives every candidate its turn, and what it pushes are the units newly taken. -/
theorem roundLanes_queueLanes (h : Queue.Fair chain root (done ++ q))
    (hstands : StandsIn pool n (done ++ q)) :
    ∃ pushed, roundLanes root pool (queueLanes chain root n done)
        (queueLanes chain root (n + done.length) q) =
          (queueLanes chain root n (serve chain root done q), pushed) ∧
      pushed + (served (done ++ q)).length = (served (serve chain root done q)).length := by
  induction q generalizing done with
  | nil =>
    refine ⟨0, rfl, ?_⟩
    rw [serve, List.append_nil, Nat.zero_add]
  | cons x q ih =>
    obtain ⟨r, take⟩ := x
    have hlength : ∀ x : ResolvedOrder × Option Take,
        n + done.length + 1 = n + (done ++ [x]).length := fun x => by
      rw [List.length_append]
      rfl
    have hassoc : ∀ take : Option Take, done ++ [(r, take)] ++ q = done ++ (r, take) :: q := by
      intro take
      rw [List.append_assoc, List.singleton_append]
    cases take with
    | some t =>
      obtain ⟨pushed, hround, hcount⟩ := ih (hassoc _ ▸ h) (hassoc _ ▸ hstands)
      rw [hassoc] at hcount
      rw [roundLanes_idle fun u hu => by rw [fitting_lane h hroot hstands hu]; simp, hlength, hround]
      exact ⟨pushed, rfl, hcount⟩
    | none =>
      obtain ⟨take, htake⟩ :
          ∃ take, (offers chain root r).find? (hasLeft root (served (done ++ q))) = take := ⟨_, rfl⟩
      obtain ⟨pushed, hround, hcount⟩ :=
        ih (hassoc take ▸ h.turn htake) (hassoc take ▸ hstands.withTake take)
      refine ⟨(if take.isSome then 1 else 0) + pushed, ?_, ?_⟩
      · rw [roundLanes_turn hroot h hstands htake, hlength (r, take), hround, serve]
        simp only [htake]
      · rw [hassoc, Queue.served_append] at hcount
        rw [serve]
        simp only [htake]
        rw [← hcount, Queue.served_append]
        cases take with
        | none => rw [Queue.served_cons_none]; simp
        | some t => simp [Queue.served_cons_some, Queue.served_cons_none]; omega

end Turns

end OrderBook

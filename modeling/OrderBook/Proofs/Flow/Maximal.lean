import OrderBook.Proofs.Flow.Reachable

/-!
A round of flow is maximal. Once a round has passed an edge, nothing more fits through it: either its
capacity or what one of its ends can still take is used up, and later pushes only use up more. So the
round after it pushes nothing and changes nothing, and a round pushes nothing just where no edge can
take anything.
-/

namespace OrderBook

theorem Arena.modify_of_fixed {α : Type} {a : Arena α} {k : Nat} {x : α} {f : α → α}
    (h : a.get? k = some x) (hf : f x = x) : a.modify k f = a := by
  have hslots : (a.modify k f).slots = a.slots := by
    obtain ⟨hk, hx⟩ := Array.getElem?_eq_some_iff.1 (slots_of_get? h)
    rw [slots_modify f h, hf, ← hx]
    simp [Array.setIfInBounds, hk]
  have hfree : (a.modify k f).free = a.free := by
    rw [modify]
    split
    · rfl
    · rfl
  generalize a.modify k f = b at hslots hfree
  cases a
  cases b
  cases hslots
  cases hfree
  rfl

namespace FlowGraph

-- The zero of sums is the literal.
attribute [local instance (high)] Zero.ofOfNat0

variable {α : Type} [Bounded α] {g : FlowGraph α} {s : FlowGraph α × Nat} {k : Nat} {e : Edge}

/-! Room gets smaller as more is used -/

theorem room_antitone (g : FlowGraph α) (n : Nat) {used more : Nat} {groupUsed groupMore : Nat → Nat}
    (hused : used ≤ more) (hgroup : ∀ c, groupUsed c ≤ groupMore c) :
    g.room n more groupMore ≤ g.room n used groupUsed := by
  simp only [room]
  cases g.node? n with
  | none => exact Nat.le_refl 0
  | some x =>
    cases hc : x.group with
    | none =>
      simp only [hc]
      exact Nat.sub_le_sub_left hused _
    | some c =>
      have hle := hgroup c
      cases hy : g.group? c with
      | none =>
        simp only [hc, hy]
        exact Nat.sub_le_sub_left hused _
      | some y =>
        simp only [hc, hy]
        omega

theorem room_add (g : FlowGraph α) (n used amount : Nat) {groupUsed groupMore : Nat → Nat}
    (hgroup : ∀ c, (g.node? n).bind (·.group) = some c → groupMore c = groupUsed c + amount) :
    g.room n (used + amount) groupMore = g.room n used groupUsed - amount := by
  simp only [room]
  cases hx : g.node? n with
  | none => exact (Nat.zero_sub amount).symm
  | some x =>
    cases hc : x.group with
    | none =>
      simp only [hc]
      omega
    | some c =>
      have hmore := hgroup c (by rw [hx, Option.bind_some, hc])
      cases hy : g.group? c with
      | none =>
        simp only [hc, hy]
        omega
      | some y =>
        simp only [hc, hy, hmore]
        omega

/-! What is left for an edge -/

def pushableAt (g : FlowGraph α) (k : Nat) : Nat := ((g.edge? k).map g.pushable).getD 0

theorem pushableAt_eq (h : g.edge? k = some e) : g.pushableAt k = g.pushable e := by
  simp only [pushableAt, h, Option.map_some, Option.getD_some]

theorem supply_pushEdge_le (w : s.1.WellFormed) (h : s.1.edge? k = some e) (n : Nat) :
    (pushEdge s k).1.supply n ≤ s.1.supply n := by
  rw [supply, (sameFrame_pushEdge s k).room]
  refine room_antitone s.1 n ?_ fun c => ?_
  · rw [w.outflow_pushEdge h]
    exact Nat.le_add_right _ _
  · rw [w.groupOutflow_pushEdge h]
    exact Nat.le_add_right _ _

theorem demand_pushEdge_le (w : s.1.WellFormed) (h : s.1.edge? k = some e) (n : Nat) :
    (pushEdge s k).1.demand n ≤ s.1.demand n := by
  rw [demand, (sameFrame_pushEdge s k).room]
  refine room_antitone s.1 n ?_ fun c => ?_
  · rw [w.inflow_pushEdge h]
    exact Nat.le_add_right _ _
  · rw [w.groupInflow_pushEdge h]
    exact Nat.le_add_right _ _

theorem supply_pushEdge_self (w : s.1.WellFormed) (h : s.1.edge? k = some e) :
    (pushEdge s k).1.supply e.source = s.1.supply e.source - s.1.pushable e := by
  rw [supply, (sameFrame_pushEdge s k).room, w.outflow_pushEdge h, if_pos rfl]
  refine room_add s.1 e.source _ _ fun c hc => ?_
  rw [w.groupOutflow_pushEdge h, if_pos (w.mem_members.2 hc)]

theorem demand_pushEdge_self (w : s.1.WellFormed) (h : s.1.edge? k = some e) :
    (pushEdge s k).1.demand e.target = s.1.demand e.target - s.1.pushable e := by
  rw [demand, (sameFrame_pushEdge s k).room, w.inflow_pushEdge h, if_pos rfl]
  refine room_add s.1 e.target _ _ fun c hc => ?_
  rw [w.groupInflow_pushEdge h, if_pos (w.mem_members.2 hc)]

/-- A push leaves nothing to push through the same edge. -/
theorem pushableAt_pushEdge_self (w : s.1.WellFormed) (k : Nat) :
    (pushEdge s k).1.pushableAt k = 0 := by
  have hedge := edge?_pushEdge s k k
  rw [if_pos rfl] at hedge
  cases h : s.1.edge? k with
  | none =>
    rw [h, Option.map_none] at hedge
    rw [pushableAt, hedge, Option.map_none, Option.getD_none]
  | some e =>
    rw [h, Option.map_some] at hedge
    rw [pushableAt_eq hedge]
    have hsupply := supply_pushEdge_self w h
    have hdemand := demand_pushEdge_self w h
    simp only [pushable, Edge.residual, Edge.addFlow] at hsupply hdemand ⊢
    rw [hsupply, hdemand]
    omega

theorem pushableAt_pushEdge_le (w : s.1.WellFormed) (j k : Nat) :
    (pushEdge s j).1.pushableAt k ≤ s.1.pushableAt k := by
  cases hj : s.1.edge? j with
  | none =>
    have hself : pushEdge s j = s := by simp only [pushEdge, hj]
    exact Nat.le_of_eq (by rw [hself])
  | some f =>
    by_cases hjk : j = k
    · rw [hjk, pushableAt_pushEdge_self w k]
      exact Nat.zero_le _
    · have hedge := edge?_pushEdge s j k
      rw [if_neg hjk] at hedge
      cases hk : s.1.edge? k with
      | none =>
        rw [hk] at hedge
        rw [pushableAt, hedge, Option.map_none, Option.getD_none]
        exact Nat.zero_le _
      | some e =>
        rw [hk] at hedge
        have hsupply := supply_pushEdge_le w hj e.source
        have hdemand := demand_pushEdge_le w hj e.target
        rw [pushableAt_eq hedge, pushableAt_eq hk]
        simp only [pushable]
        omega

/-! Rounds -/

theorem pushed_pushEdge (s : FlowGraph α × Nat) (k : Nat) :
    (pushEdge s k).2 = s.2 + s.1.pushableAt k := by
  cases h : s.1.edge? k with
  | none => simp only [pushEdge, pushableAt, h, Option.map_none, Option.getD_none, Nat.add_zero]
  | some e => simp only [pushEdge, pushableAt, h, Option.map_some, Option.getD_some]

theorem pushableAt_foldl_le (keys : List Nat) (w : s.1.WellFormed) (k : Nat) :
    (keys.foldl pushEdge s).1.pushableAt k ≤ s.1.pushableAt k := by
  induction keys generalizing s with
  | nil => exact Nat.le_refl _
  | cons key keys ih =>
    exact Nat.le_trans (ih (w.pushEdge key)) (pushableAt_pushEdge_le w key k)

theorem pushableAt_foldl_eq_zero {keys : List Nat} (w : s.1.WellFormed) (hk : k ∈ keys) :
    (keys.foldl pushEdge s).1.pushableAt k = 0 := by
  induction keys generalizing s with
  | nil => cases hk
  | cons key keys ih =>
    cases hk with
    | head =>
      have hle := pushableAt_foldl_le keys (w.pushEdge k) k
      rw [pushableAt_pushEdge_self w k] at hle
      exact Nat.le_zero.1 hle
    | tail _ hk => exact ih (w.pushEdge key) hk

theorem WellFormed.pushableAt_pushFlow (w : g.WellFormed) (k : Nat) :
    g.pushFlow.1.pushableAt k = 0 := by
  by_cases hk : k ∈ g.edges.keys
  · exact pushableAt_foldl_eq_zero w hk
  · have hnone : g.edge? k = none := by
      cases h : g.edge? k with
      | none => rfl
      | some e =>
        have hsome : (g.edges.get? k).isSome = true := Option.isSome_of_eq_some h
        exact absurd (Arena.mem_keys.2 hsome) hk
    have hle := pushableAt_foldl_le (s := (g, 0)) g.edges.keys w k
    have hzero : g.pushableAt k = 0 := by
      rw [pushableAt, hnone, Option.map_none, Option.getD_none]
    exact Nat.le_zero.1 (hzero ▸ hle)

/-! Rounds that push nothing -/

/-- That no edge can take anything. -/
def Stable (g : FlowGraph α) : Prop :=
  ∀ k e, g.edge? k = some e → e.residual = 0 ∨ g.supply e.source = 0 ∨ g.demand e.target = 0

theorem pushable_eq_zero_iff (g : FlowGraph α) (e : Edge) :
    g.pushable e = 0 ↔ e.residual = 0 ∨ g.supply e.source = 0 ∨ g.demand e.target = 0 := by
  rw [pushable]
  omega

theorem stable_iff : g.Stable ↔ ∀ k, g.pushableAt k = 0 := by
  constructor
  · intro h k
    cases he : g.edge? k with
    | none => rw [pushableAt, he, Option.map_none, Option.getD_none]
    | some e =>
      rw [pushableAt_eq he]
      exact (g.pushable_eq_zero_iff e).2 (h k e he)
  · intro h k e he
    rw [← pushable_eq_zero_iff, ← pushableAt_eq he]
    exact h k

theorem pushEdge_of_still (h : s.1.pushableAt k = 0) : pushEdge s k = s := by
  cases he : s.1.edge? k with
  | none => simp only [pushEdge, he]
  | some e =>
    rw [pushableAt_eq he] at h
    have hsame : s.1.edges.modify k (·.addFlow 0) = s.1.edges := Arena.modify_of_fixed he rfl
    simp only [pushEdge, he, h, hsame, Nat.add_zero]

theorem foldl_pushEdge_of_still (keys : List Nat) (h : ∀ k, s.1.pushableAt k = 0) :
    keys.foldl pushEdge s = s := by
  induction keys with
  | nil => rfl
  | cons key keys ih => rw [List.foldl_cons, pushEdge_of_still (h key), ih]

theorem pushFlow_of_still (h : ∀ k, g.pushableAt k = 0) : g.pushFlow = (g, 0) :=
  foldl_pushEdge_of_still g.edges.keys h

theorem pushed_le_foldl (keys : List Nat) (s : FlowGraph α × Nat) :
    s.2 ≤ (keys.foldl pushEdge s).2 := by
  induction keys generalizing s with
  | nil => exact Nat.le_refl _
  | cons key keys ih =>
    have hfirst : s.2 ≤ (pushEdge s key).2 := pushed_pushEdge s key ▸ Nat.le_add_right _ _
    exact Nat.le_trans hfirst (ih _)

theorem foldl_pushEdge_of_pushed {keys : List Nat} (h : (keys.foldl pushEdge s).2 = s.2) :
    keys.foldl pushEdge s = s := by
  induction keys generalizing s with
  | nil => rfl
  | cons key keys ih =>
    have hrest := pushed_le_foldl keys (pushEdge s key)
    have hfirst := pushed_pushEdge s key
    rw [List.foldl_cons] at h
    have hstill : pushEdge s key = s := pushEdge_of_still (by omega)
    rw [List.foldl_cons, hstill]
    rw [hstill] at h
    exact ih h

/-! What a round pushes -/

theorem totalFlow_pushEdge (s : FlowGraph α × Nat) (k : Nat) :
    (pushEdge s k).1.totalFlow + s.2 = s.1.totalFlow + (pushEdge s k).2 := by
  cases h : s.1.edge? k with
  | none => simp only [pushEdge, h]
  | some e =>
    have htotal := Arena.total_modify (·.flow) (·.addFlow (s.1.pushable e)) h
    simp only [pushEdge, h, totalFlow, Edge.addFlow] at htotal ⊢
    omega

theorem totalFlow_foldl (keys : List Nat) (s : FlowGraph α × Nat) :
    (keys.foldl pushEdge s).1.totalFlow + s.2 = s.1.totalFlow + (keys.foldl pushEdge s).2 := by
  induction keys generalizing s with
  | nil => rfl
  | cons key keys ih =>
    have hfirst := totalFlow_pushEdge s key
    have hrest := ih (pushEdge s key)
    rw [List.foldl_cons]
    omega

theorem totalFlow_pushFlow (g : FlowGraph α) :
    g.pushFlow.1.totalFlow = g.totalFlow + g.pushFlow.2 :=
  totalFlow_foldl g.edges.keys (g, 0)

theorem edge?_pushFlow_addFlow (h : g.edge? k = some e) :
    ∃ n, g.pushFlow.1.edge? k = some (e.addFlow n) := by
  refine pushFlow_induction (P := fun h => ∃ n, h.edge? k = some (e.addFlow n)) ⟨0, h⟩ ?_
  rintro s key ⟨n, hn⟩
  rw [edge?_pushEdge, hn]
  split
  · refine ⟨n + s.1.pushable (e.addFlow n), ?_⟩
    simp only [Option.map_some, Edge.addFlow, Nat.add_assoc]
  · exact ⟨n, rfl⟩

theorem WellFormed.stable_pushFlow (w : g.WellFormed) : g.pushFlow.1.Stable :=
  stable_iff.2 w.pushableAt_pushFlow

theorem WellFormed.pushed_eq_zero_iff (w : g.WellFormed) : g.pushFlow.2 = 0 ↔ g.Stable := by
  constructor
  · intro h
    have hsame : g.pushFlow = (g, 0) := foldl_pushEdge_of_pushed (s := (g, 0)) h
    have hstable := w.stable_pushFlow
    rwa [hsame] at hstable
  · intro h
    rw [pushFlow_of_still (stable_iff.1 h)]

/-- A round only adds flow, by as much as it says, and leaves nothing for another one. -/
theorem Reachable.pushFlow_maximal (r : Reachable g) :
    (∀ k e, g.edge? k = some e → ∃ n, g.pushFlow.1.edge? k = some (e.addFlow n)) ∧
      g.pushFlow.1.totalFlow = g.totalFlow + g.pushFlow.2 ∧
      g.pushFlow.1.Stable ∧
      g.pushFlow.1.pushFlow = (g.pushFlow.1, 0) ∧
      (g.pushFlow.2 = 0 ↔ g.Stable) := by
  have w := r.wellFormed
  refine ⟨fun k e he => edge?_pushFlow_addFlow he, g.totalFlow_pushFlow, w.stable_pushFlow, ?_, ?_⟩
  · exact pushFlow_of_still w.pushableAt_pushFlow
  · exact w.pushed_eq_zero_iff

/-- Once the second node of the shared limit is cut off, a round moves what it had to the node outside,
and another round moves nothing. -/
theorem pushFlow_maximal_sharedLimit :
    Reachable (sharedLimit.pushFlow.1.unlink 1) ∧ ¬ (sharedLimit.pushFlow.1.unlink 1).Stable ∧
      sharedLimitPushed.totalFlow = (sharedLimit.pushFlow.1.unlink 1).totalFlow + 2 ∧
      sharedLimitPushed.Stable ∧ sharedLimitPushed.pushFlow = (sharedLimitPushed, 0) := by
  have hreach : Reachable (sharedLimit.pushFlow.1.unlink 1) :=
    .unlink _ (.pushFlow (.link _ _ (.link _ _ (.link _ _
      (.addNode _ _ (.addNode _ _ (.addNode _ _ (.addGroup _ .empty))))))))
  have hpushed : (sharedLimit.pushFlow.1.unlink 1).pushFlow.2 = 2 := by decide
  obtain ⟨-, htotal, hstable, hstill, hzero⟩ := Reachable.pushFlow_maximal hreach
  rw [hpushed] at htotal hzero
  exact ⟨hreach, fun h => absurd (hzero.2 h) (by decide), htotal, hstable, hstill⟩

end FlowGraph

end OrderBook

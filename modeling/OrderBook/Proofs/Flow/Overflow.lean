import OrderBook.Proofs.CountSums
import OrderBook.Proofs.Flow.Maximal
import OrderBook.Proofs.Positions

/-!
Sums of flow in words. An edge has one node at either end, so what a node receives and sends together is
part of all that flows, and so it is with a group that no edge lies within. Where all that flows is at
most some count, none of the sums overflows.
-/

namespace OrderBook

-- The zero of sums is the literal.
attribute [local instance (high)] Zero.ofOfNat0

namespace Arena

variable {α : Type}

theorem map_snd_entries (a : Arena α) : a.entries.map Prod.snd = a.values := by
  have hentries : a.entries.map Prod.snd =
      ((List.range a.slots.toList.length).filterMap (a.slots.toList[·]?)).filterMap id := by
    rw [entries, List.map_filterMap, List.filterMap_filterMap, Array.length_toList]
    refine List.filterMap_congr fun k _ => ?_
    rw [get?, Array.getElem?_toList]
    cases a.slots[k]? with
    | none => rfl
    | some o => cases o <;> rfl
  rw [hentries, filterMap_getElem?_range]
  rfl

theorem total_eq (w : α → Nat) (a : Arena α) : a.total w = (a.values.map w).sum := by
  rw [total, values]
  generalize a.slots.toList = slots
  induction slots with
  | nil => rfl
  | cons o slots ih =>
    cases o with
    | none => simpa using ih
    | some x => simpa using ih

end Arena

namespace FlowGraph

variable {α : Type} {g : FlowGraph α}

theorem totalFlow_eq (g : FlowGraph α) : g.totalFlow = g.flowWhere fun _ => true := by
  rw [totalFlow, Arena.total_eq, ← Arena.map_snd_entries, flowWhere, sumWhere_eq_filter]
  simp [Function.comp_def]

theorem flowWhere_le (g : FlowGraph α) (p : Edge → Bool) : g.flowWhere p ≤ g.totalFlow := by
  rw [totalFlow_eq]
  exact sumWhere_mono _ fun _ _ _ => rfl

theorem flowWhere_add_le {p q : Edge → Bool}
    (h : ∀ {k e}, g.edge? k = some e → p e = true → q e = false) :
    g.flowWhere p + g.flowWhere q ≤ g.totalFlow := by
  have hor : g.flowWhere (fun e => p e || q e) = g.flowWhere p + g.flowWhere q :=
    sumWhere_or _ fun x hx => h (mem_entries.1 hx)
  rw [← hor]
  exact g.flowWhere_le _

theorem flowOf_le (g : FlowGraph α) (k : Nat) : g.flowOf k ≤ g.totalFlow := by
  rw [flowOf]
  cases he : g.edge? k with
  | none => exact Nat.zero_le _
  | some e =>
    rw [totalFlow_eq]
    exact le_sumWhere (fun x : Nat × Edge => x.2.flow) (mem_entries.2 he) rfl

theorem WellFormed.inflow_add_outflow_le (w : g.WellFormed) (n : Nat) :
    g.inflow n + g.outflow n ≤ g.totalFlow := by
  rw [w.inflow_eq, w.outflow_eq]
  refine flowWhere_add_le fun he htarget => ?_
  have hne := w.no_loop he
  rw [of_decide_eq_true htarget] at hne
  exact decide_eq_false hne

/-- That no edge leads from a member of a group to another one. -/
def Outward (g : FlowGraph α) (c : Nat) : Prop :=
  ∀ {k e}, g.edge? k = some e → e.target ∈ g.members c → e.source ∉ g.members c

theorem WellFormed.groupInflow_add_groupOutflow_le (w : g.WellFormed) {c : Nat} (h : g.Outward c) :
    g.groupInflow c + g.groupOutflow c ≤ g.totalFlow := by
  rw [w.groupInflow_eq, w.groupOutflow_eq]
  exact flowWhere_add_le fun he htarget => decide_eq_false (h he (of_decide_eq_true htarget))

/-- Every sum of flow adds up to at most `limit`: over the edges of a node, over the members of a group,
over what either has received and sent, and over all edges. -/
structure SumsWithin (g : FlowGraph α) (limit : UInt32) : Prop where
  inflow : ∀ n, AddsUp limit ((g.incoming n).map g.flowOf) (g.inflow n)
  outflow : ∀ n, AddsUp limit ((g.outgoing n).map g.flowOf) (g.outflow n)
  groupInflow : ∀ c, AddsUp limit ((g.members c).map g.inflow) (g.groupInflow c)
  groupOutflow : ∀ c, AddsUp limit ((g.members c).map g.outflow) (g.groupOutflow c)
  used : ∀ n, AddsUp limit [g.inflow n, g.outflow n] (g.inflow n + g.outflow n)
  groupUsed : ∀ c, AddsUp limit [g.groupInflow c, g.groupOutflow c] (g.groupInflow c + g.groupOutflow c)
  total : AddsUp limit (g.edges.values.map (·.flow)) g.totalFlow

theorem WellFormed.sumsWithin (w : g.WellFormed) {limit : UInt32} (houtward : ∀ c, g.Outward c)
    (hle : g.totalFlow ≤ limit.toNat) : g.SumsWithin limit := by
  have hnode := fun n => Nat.le_trans (w.inflow_add_outflow_le n) hle
  have hgroup := fun c => Nat.le_trans (w.groupInflow_add_groupOutflow_le (houtward c)) hle
  constructor
  · exact fun n => addsUp_of_le rfl (Nat.le_of_add_right_le (hnode n))
  · exact fun n => addsUp_of_le rfl (Nat.le_of_add_left_le (hnode n))
  · exact fun c => addsUp_of_le rfl (Nat.le_of_add_right_le (hgroup c))
  · exact fun c => addsUp_of_le rfl (Nat.le_of_add_left_le (hgroup c))
  · exact fun n => addsUp_of_le (by simp) (hnode n)
  · exact fun c => addsUp_of_le (by simp) (hgroup c)
  · exact addsUp_of_le (Arena.total_eq _ _).symm hle

/-! A round part by part -/

section

variable [Bounded α]

/-- A round after the edges with some numbers, with the flow pushed so far. After all numbers it is the
whole round. -/
def pushThrough (g : FlowGraph α) (before : List Nat) : FlowGraph α × Nat :=
  before.foldl pushEdge (g, 0)

theorem pushThrough_concat (g : FlowGraph α) (before : List Nat) (k : Nat) :
    g.pushThrough (before ++ [k]) = pushEdge (g.pushThrough before) k := by
  rw [pushThrough, List.foldl_append]
  rfl

theorem totalFlow_pushThrough (g : FlowGraph α) (before : List Nat) :
    (g.pushThrough before).1.totalFlow = g.totalFlow + (g.pushThrough before).2 :=
  totalFlow_foldl before (g, 0)

theorem pushed_concat (g : FlowGraph α) (before : List Nat) (k : Nat) :
    (g.pushThrough (before ++ [k])).2 =
      (g.pushThrough before).2 + (g.pushThrough before).1.pushableAt k := by
  rw [pushThrough_concat, pushed_pushEdge]

theorem flowOf_concat (g : FlowGraph α) (before : List Nat) (k : Nat) :
    (g.pushThrough (before ++ [k])).1.flowOf k =
      (g.pushThrough before).1.flowOf k + (g.pushThrough before).1.pushableAt k := by
  rw [pushThrough_concat, flowOf, edge?_pushEdge, if_pos rfl, flowOf, pushableAt]
  cases (g.pushThrough before).1.edge? k with
  | none => rfl
  | some e => rfl

end

end FlowGraph

end OrderBook

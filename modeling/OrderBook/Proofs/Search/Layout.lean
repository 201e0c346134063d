import Mathlib.Data.List.Forall2
import Mathlib.Data.List.Nodup
import OrderBook.Flow.OrderNodes
import OrderBook.Proofs.Flow.Reachable
import OrderBook.Search.FlowPass

/-!
How orders lie in a graph. The nodes of an order carry its items, form a group of their own, and the
group is limited to what the order asks for. Inserting orders one after the other gives each its own
nodes, and nothing that happens to edges later changes that.
-/

namespace OrderBook

/-- An order as it lies in a graph. -/
structure OrderNodes.Represents (c : OrderNodes) (g : OrderGraph) (r : ResolvedOrder) : Prop where
  order : c.order = r.order
  payloads : c.nodes.map (fun n => (g.node? n).map (·.data)) = r.items.map some
  members : g.members c.group = c.nodes
  limit : (g.group? c.group).map (·.limit) = some r.order.numItems.toNat

/-- A graph with more nodes and groups, and with the edges as they were. -/
structure FlowGraph.Extends {α : Type} (g h : FlowGraph α) : Prop where
  node? : ∀ {n : Nat} {x : Node α}, g.node? n = some x → h.node? n = some x
  group? : ∀ {c : Nat} {x : Group}, g.group? c = some x → h.group? c = some x
  groups_le : g.groups.size ≤ h.groups.size
  edges : h.edges = g.edges

namespace FlowGraph.Extends

variable {α : Type} {g h i : FlowGraph α}

theorem refl (g : FlowGraph α) : g.Extends g := ⟨id, id, Nat.le_refl _, rfl⟩

theorem trans (p : g.Extends h) (q : h.Extends i) : g.Extends i :=
  ⟨fun e => q.node? (p.node? e), fun e => q.group? (p.group? e), Nat.le_trans p.groups_le q.groups_le,
    q.edges.trans p.edges⟩

end FlowGraph.Extends

namespace OrderNodes

variable {c : OrderNodes} {g h : OrderGraph} {r : ResolvedOrder}

theorem Represents.of_extends (p : c.Represents g r) (e : g.Extends h) : c.Represents h r := by
  obtain ⟨x, hx, hl⟩ := Option.map_eq_some_iff.1 p.limit
  have hx' := e.group? hx
  refine ⟨p.order, ?_, ?_, ?_⟩
  · rw [← p.payloads]
    refine List.map_congr_left fun n hn => ?_
    have hmem : (g.node? n).map (·.data) ∈ r.items.map some :=
      p.payloads ▸ List.mem_map_of_mem hn
    obtain ⟨i, -, hi⟩ := List.mem_map.1 hmem
    obtain ⟨y, hy, -⟩ := Option.map_eq_some_iff.1 hi.symm
    rw [hy, e.node? hy]
  · have := p.members
    simp only [FlowGraph.members, hx, hx'] at this ⊢
    exact this
  · rw [hx', Option.map_some, hl]

theorem Represents.of_frame (p : c.Represents g r) (f : FlowGraph.SameFrame g h) : c.Represents h r := by
  refine ⟨p.order, ?_, (f.members _).trans p.members, ?_⟩
  · rw [← p.payloads]
    exact List.map_congr_left fun n _ => f.payload n
  · rw [← p.limit]
    simp [FlowGraph.group?, f.groups]

theorem Represents.mem_nodes (p : c.Represents g r) (w : g.WellFormed) {n : Nat} :
    n ∈ c.nodes ↔ (g.node? n).bind (·.group) = some c.group := by
  rw [← p.members]
  exact w.mem_members

theorem Represents.nodes_nodup (p : c.Represents g r) (w : g.WellFormed) : c.nodes.Nodup :=
  p.members ▸ w.members_nodup c.group

theorem Represents.length_nodes (p : c.Represents g r) : c.nodes.length = r.items.length := by
  simpa using congrArg List.length p.payloads

theorem Represents.payload (p : c.Represents g r) {t n : Nat} (h : c.nodes[t]? = some n) :
    (g.node? n).map (·.data) = r.items[t]? := by
  have := congrArg (fun l : List (Option OrderItem) => l[t]?) p.payloads
  simp only [List.getElem?_map, h, Option.map_some] at this
  cases hr : r.items[t]? with
  | none => simp [hr] at this
  | some i => simpa [hr] using this

theorem Represents.numItems_eq (p : c.Represents g r) : c.numItems = r.order.numItems.toNat := by
  rw [numItems, p.order]

theorem Represents.room (p : c.Represents g r) (w : g.WellFormed) {t n : Nat} {i : OrderItem}
    (hn : c.nodes[t]? = some n) (hi : r.items[t]? = some i) (used : Nat) (groupUsed : Nat → Nat) :
    g.room n used groupUsed =
      min (i.maxContribution.toNat - used) (r.order.numItems.toNat - groupUsed c.group) := by
  have hd := p.payload hn
  rw [hi] at hd
  obtain ⟨x, hx, hdata⟩ := Option.map_eq_some_iff.1 hd
  have hgroup := (p.mem_nodes w).1 (List.mem_of_getElem? hn)
  rw [hx] at hgroup
  obtain ⟨y, hy, hlimit⟩ := Option.map_eq_some_iff.1 p.limit
  have hgroup : x.group = some c.group := hgroup
  simp only [FlowGraph.room, hx, hgroup, hy, hdata, hlimit, Bounded.maxFlow]

/-! Inserting one order -/

theorem extends_addGroup (g : OrderGraph) (limit : Nat) : g.Extends (g.addGroup limit).1 where
  node? := id
  group? {c x} hx := by
    rw [FlowGraph.group?_addGroup, if_neg]
    · exact hx
    · rintro rfl
      simp [FlowGraph.group?] at hx
  groups_le := by simp [FlowGraph.addGroup]
  edges := rfl

/-- What adding the items of an order leaves: the nodes of the items at the end of their group, and
everything else as before. -/
structure ItemsAdded (g h : OrderGraph) (group : Nat) (nodes : List Nat) (items : List OrderItem) :
    Prop where
  payloads : nodes.map (fun n => (h.node? n).map (·.data)) = items.map some
  node? : ∀ {n : Nat} {x : Node OrderItem}, g.node? n = some x → h.node? n = some x
  group? : h.group? group = (g.group? group).map fun x => { x with members := x.members ++ nodes }
  others : ∀ {c : Nat}, c ≠ group → h.group? c = g.group? c
  groups_size : h.groups.size = g.groups.size
  edges : h.edges = g.edges
  reachable : g.Reachable → h.Reachable

theorem groups_size_addNode (g : OrderGraph) (i : OrderItem) (group : Option Nat) :
    (g.addNode i group).1.groups.size = g.groups.size := by
  cases group with
  | none => rfl
  | some c => by_cases h : c < g.groups.size <;> simp [FlowGraph.addNode, Option.filter, h]

theorem itemsAdded_addItems (g : OrderGraph) (group : Nat) (items : List OrderItem) :
    ItemsAdded g (addItems g group items).1 group (addItems g group items).2 items := by
  induction items generalizing g with
  | nil => exact ⟨rfl, id, by simp [addItems], fun _ => rfl, rfl, rfl, id⟩
  | cons i is ih =>
    have hnode : (g.addNode i (some group)).1.node? g.nodes.size =
        some { data := i, group := (some group).filter (· < g.groups.size) } := by
      rw [FlowGraph.node?_addNode, if_pos rfl]
    have step := ih (g.addNode i (some group)).1
    refine ⟨?_, ?_, ?_, ?_, ?_, ?_, ?_⟩
    · have head := step.node? hnode
      simp only [addItems, List.map_cons]
      rw [step.payloads]
      exact congrArg (· :: _) (congrArg (Option.map (·.data)) head)
    · intro n x hx
      refine step.node? ?_
      rw [FlowGraph.node?_addNode, if_neg]
      · exact hx
      · rintro rfl
        simp [FlowGraph.node?_size] at hx
    · have head := FlowGraph.group?_addNode g i (some group) group
      rw [if_pos rfl] at head
      have := step.group?
      rw [head, Option.map_map] at this
      simpa [addItems, Function.comp_def, FlowGraph.addNode] using this
    · intro c hc
      have head := FlowGraph.group?_addNode g i (some group) c
      rw [if_neg (by simpa using Ne.symm hc)] at head
      exact (step.others hc).trans head
    · exact step.groups_size.trans (groups_size_addNode g i (some group))
    · exact step.edges
    · exact fun r => step.reachable (.addNode i (some group) r)

structure Inserted (g h : OrderGraph) (c : OrderNodes) (r : ResolvedOrder) : Prop where
  represents : c.Represents h r
  extends_ : g.Extends h
  group : c.group = g.groups.size
  groups_size : h.groups.size = g.groups.size + 1
  reachable : g.Reachable → h.Reachable

theorem inserted_insert (g : OrderGraph) (r : ResolvedOrder) :
    Inserted g (insert g r).1 (insert g r).2 r := by
  have hg := extends_addGroup g r.order.numItems.toNat
  have hi := itemsAdded_addItems (g.addGroup r.order.numItems.toNat).1 g.groups.size r.items
  have hnew := FlowGraph.group?_addGroup g r.order.numItems.toNat g.groups.size
  rw [if_pos rfl] at hnew
  have hgroup := hi.group?
  rw [hnew] at hgroup
  have hsize : (g.addGroup r.order.numItems.toNat).1.groups.size = g.groups.size + 1 := by
    simp [FlowGraph.addGroup]
  refine ⟨⟨rfl, hi.payloads, ?_, ?_⟩, ⟨?_, ?_, ?_, ?_⟩, rfl, ?_, ?_⟩
  · show (((addItems (g.addGroup r.order.numItems.toNat).1 g.groups.size r.items).1.group?
      g.groups.size).map (·.members)).getD [] = _
    rw [hgroup]
    rfl
  · show ((addItems (g.addGroup r.order.numItems.toNat).1 g.groups.size r.items).1.group?
      g.groups.size).map (·.limit) = _
    rw [hgroup]
    rfl
  · exact fun hx => hi.node? (hg.node? hx)
  · intro c x hx
    have hc : c ≠ g.groups.size := by
      rintro rfl
      simp [FlowGraph.group?] at hx
    exact (hi.others hc).trans (hg.group? hx)
  · show g.groups.size ≤
      (addItems (g.addGroup r.order.numItems.toNat).1 g.groups.size r.items).1.groups.size
    rw [hi.groups_size, hsize]
    exact Nat.le_succ _
  · exact hi.edges
  · exact hi.groups_size.trans hsize
  · exact fun hr => hi.reachable (.addGroup _ hr)

end OrderNodes

/-! Inserting all orders -/

namespace FlowPass

open OrderNodes

theorem insertAll_spec (g : OrderGraph) (rs : List ResolvedOrder) :
    List.Forall₂ (fun c r => c.Represents (insertAll g rs).1 r) (insertAll g rs).2 rs ∧
      g.Extends (insertAll g rs).1 ∧
      (insertAll g rs).2.map (·.group) = List.range' g.groups.size rs.length ∧
      (g.Reachable → (insertAll g rs).1.Reachable) := by
  induction rs generalizing g with
  | nil => exact ⟨.nil, FlowGraph.Extends.refl g, rfl, id⟩
  | cons r rs ih =>
    have first := inserted_insert g r
    obtain ⟨reps, ext, groups, reach⟩ := ih (OrderNodes.insert g r).1
    refine ⟨.cons (first.represents.of_extends ext) reps, first.extends_.trans ext, ?_,
      fun h => reach (first.reachable h)⟩
    rw [first.groups_size] at groups
    simp only [insertAll, List.map_cons, groups, first.group, List.length_cons, List.range'_succ]

/-- How the root and a pool lie in a graph. -/
structure Layout (root : ResolvedOrder) (pool : List ResolvedOrder) (g : OrderGraph)
    (rootNodes : OrderNodes) (candidates : List OrderNodes) : Prop where
  apart : (rootNodes.group :: candidates.map (·.group)).Nodup
  root : rootNodes.Represents g root
  candidates : List.Forall₂ (fun c r => c.Represents g r) candidates pool

variable {root : ResolvedOrder} {pool : List ResolvedOrder} {g h : OrderGraph}
  {rootNodes : OrderNodes} {candidates : List OrderNodes}

theorem Layout.candidate (l : Layout root pool g rootNodes candidates) {j : Nat} {c : OrderNodes}
    (h : candidates[j]? = some c) : ∃ r, pool[j]? = some r ∧ c.Represents g r := by
  obtain ⟨hlen, hget⟩ := List.forall₂_iff_get.1 l.candidates
  obtain ⟨hj, rfl⟩ := List.getElem?_eq_some_iff.1 h
  have hj' : j < pool.length := hlen ▸ hj
  exact ⟨pool[j], List.getElem?_eq_getElem _, hget j hj hj'⟩

theorem Layout.length_eq (l : Layout root pool g rootNodes candidates) :
    candidates.length = pool.length :=
  l.candidates.length_eq

theorem Layout.candidate_unique (l : Layout root pool g rootNodes candidates) (w : g.WellFormed)
    {i j n : Nat}
    {c d : OrderNodes} (hc : candidates[i]? = some c) (hd : candidates[j]? = some d)
    (hn : n ∈ c.nodes) (hm : n ∈ d.nodes) : i = j := by
  obtain ⟨r, -, hr⟩ := l.candidate hc
  obtain ⟨q, -, hq⟩ := l.candidate hd
  have hgroup : c.group = d.group := by
    have := ((hr.mem_nodes w).1 hn).symm.trans ((hq.mem_nodes w).1 hm)
    simpa using this
  have hnodup := (List.nodup_cons.1 l.apart).2
  have hi : (candidates.map (·.group))[i]? = some c.group := by simp [hc]
  have hj : (candidates.map (·.group))[j]? = some c.group := by simp [hd, hgroup]
  obtain ⟨hi', hi⟩ := List.getElem?_eq_some_iff.1 hi
  obtain ⟨hj', hj⟩ := List.getElem?_eq_some_iff.1 hj
  exact (List.getElem_inj hnodup).1 (hi.trans hj.symm)

theorem Layout.root_apart (l : Layout root pool g rootNodes candidates) (w : g.WellFormed)
    {n : Nat} {c : OrderNodes}
    (hn : n ∈ rootNodes.nodes) (hc : c ∈ candidates) : n ∉ c.nodes := by
  intro hm
  obtain ⟨j, hj⟩ := List.mem_iff_getElem?.1 hc
  obtain ⟨r, -, hr⟩ := l.candidate hj
  have hgroup : rootNodes.group = c.group := by
    have := ((l.root.mem_nodes w).1 hn).symm.trans ((hr.mem_nodes w).1 hm)
    simpa using this
  exact (List.nodup_cons.1 l.apart).1 (hgroup ▸ List.mem_map_of_mem hc)

theorem Layout.notMem_candidates (l : Layout root pool g rootNodes candidates) (w : g.WellFormed) :
    ∀ n ∈ rootNodes.nodes, n ∉ candidates.flatMap (·.nodes) := by
  intro n hn hm
  obtain ⟨c, hc, hm⟩ := List.mem_flatMap.1 hm
  exact l.root_apart w hn hc hm

theorem Layout.nodup_nodes (l : Layout root pool g rootNodes candidates) (w : g.WellFormed) :
    (candidates.flatMap (·.nodes)).Nodup := by
  rw [List.nodup_flatMap]
  refine ⟨?_, ?_⟩
  · intro c hc
    obtain ⟨j, hj⟩ := List.mem_iff_getElem?.1 hc
    obtain ⟨r, -, hr⟩ := l.candidate hj
    exact hr.nodes_nodup w
  · rw [List.pairwise_iff_getElem]
    intro i j hi hj hij n hn hm
    have := l.candidate_unique w (List.getElem?_eq_getElem hi) (List.getElem?_eq_getElem hj) hn hm
    omega

theorem Layout.of_frame (l : Layout root pool g rootNodes candidates) (f : FlowGraph.SameFrame g h) :
    Layout root pool h rootNodes candidates :=
  ⟨l.apart, l.root.of_frame f, l.candidates.imp fun _ _ hr => hr.of_frame f⟩

theorem layout_insertAll (root : ResolvedOrder) (pool : List ResolvedOrder) :
    let first := OrderNodes.insert .empty root
    let all := insertAll first.1 pool
    Layout root pool all.1 first.2 all.2 ∧ all.1.Reachable ∧
      all.1.edges = (FlowGraph.empty : OrderGraph).edges := by
  intro first all
  have hroot := inserted_insert .empty root
  obtain ⟨reps, ext, groups, reach⟩ := insertAll_spec first.1 pool
  refine ⟨⟨?_, hroot.represents.of_extends ext, reps⟩, reach (hroot.reachable .empty), ?_⟩
  · rw [show all.2.map (·.group) = _ from groups, hroot.group, hroot.groups_size]
    refine List.nodup_cons.2 ⟨?_, List.nodup_range'⟩
    intro h
    have hempty : (FlowGraph.empty : OrderGraph).groups.size = 0 := rfl
    have := List.mem_range'_1.1 h
    omega
  · exact ext.edges.trans hroot.extends_.edges

end FlowPass

end OrderBook

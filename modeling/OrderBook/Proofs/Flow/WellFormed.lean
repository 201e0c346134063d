import Mathlib.Data.List.Nodup
import OrderBook.Proofs.Flow.Arena
import OrderBook.Proofs.Flow.Frame

/-!
Well-formed graphs. The lists of the nodes and the table of edges say the same: an edge stands once
in the list of the node it leaves, once in the list of the node it reaches, and nowhere else. Every
operation on graphs keeps this, also when the number of an edge is handed out again.
-/

namespace OrderBook

def Edge.ends (e : Edge) : Nat × Nat × Nat := (e.source, e.target, e.capacity)

namespace FlowGraph

variable {α : Type}

structure WellFormed (g : FlowGraph α) : Prop where
  mem_outgoing : ∀ {n k : Nat}, k ∈ g.outgoing n ↔ ∃ e, g.edge? k = some e ∧ e.source = n
  mem_incoming : ∀ {n k : Nat}, k ∈ g.incoming n ↔ ∃ e, g.edge? k = some e ∧ e.target = n
  outgoing_nodup : ∀ n, (g.outgoing n).Nodup
  incoming_nodup : ∀ n, (g.incoming n).Nodup
  no_loop : ∀ {k : Nat} {e : Edge}, g.edge? k = some e → e.source ≠ e.target
  one_edge : ∀ {j k : Nat} {e f : Edge}, g.edge? j = some e → g.edge? k = some f →
    e.source = f.source → e.target = f.target → j = k
  capacity_pos : ∀ {k : Nat} {e : Edge}, g.edge? k = some e → 0 < e.capacity
  mem_members : ∀ {c n : Nat}, n ∈ g.members c ↔ (g.node? n).bind (·.group) = some c
  members_nodup : ∀ c, (g.members c).Nodup

/-! The empty graph, groups and nodes -/

theorem outgoing_empty (n : Nat) : (empty : FlowGraph α).outgoing n = [] := by
  simp [outgoing, node?, empty]

theorem incoming_empty (n : Nat) : (empty : FlowGraph α).incoming n = [] := by
  simp [incoming, node?, empty]

theorem edge?_empty (k : Nat) : (empty : FlowGraph α).edge? k = none := by
  simp [edge?, empty, Arena.get?]

theorem WellFormed.empty : (empty : FlowGraph α).WellFormed where
  mem_outgoing := by simp [outgoing_empty, edge?_empty]
  mem_incoming := by simp [incoming_empty, edge?_empty]
  outgoing_nodup n := by simp [outgoing_empty]
  incoming_nodup n := by simp [incoming_empty]
  no_loop h := by simp [edge?_empty] at h
  one_edge h := by simp [edge?_empty] at h
  capacity_pos h := by simp [edge?_empty] at h
  mem_members := by simp [members, group?, node?, FlowGraph.empty]
  members_nodup c := by simp [members, group?, FlowGraph.empty]

theorem group?_addGroup (g : FlowGraph α) (limit c : Nat) :
    (g.addGroup limit).1.group? c = if c = g.groups.size then some { limit } else g.group? c := by
  simp [addGroup, group?, Array.getElem?_push]

theorem members_addGroup (g : FlowGraph α) (limit c : Nat) :
    (g.addGroup limit).1.members c = g.members c := by
  simp only [members]
  rw [group?_addGroup]
  split
  · rename_i h; simp [group?, h]
  · rfl

theorem WellFormed.addGroup {g : FlowGraph α} (w : g.WellFormed) (limit : Nat) :
    (g.addGroup limit).1.WellFormed where
  mem_outgoing := w.mem_outgoing
  mem_incoming := w.mem_incoming
  outgoing_nodup := w.outgoing_nodup
  incoming_nodup := w.incoming_nodup
  no_loop := w.no_loop
  one_edge := w.one_edge
  capacity_pos := w.capacity_pos
  mem_members {c n} := by rw [members_addGroup]; exact w.mem_members
  members_nodup c := by rw [members_addGroup]; exact w.members_nodup c

theorem node?_addNode (g : FlowGraph α) (data : α) (group : Option Nat) (n : Nat) :
    (g.addNode data group).1.node? n =
      if n = g.nodes.size then some { data, group := group.filter (· < g.groups.size) }
      else g.node? n := by
  simp [addNode, node?, Array.getElem?_push]

theorem node?_size (g : FlowGraph α) : g.node? g.nodes.size = none := by simp [node?]

theorem outgoing_addNode (g : FlowGraph α) (data : α) (group : Option Nat) (n : Nat) :
    (g.addNode data group).1.outgoing n = g.outgoing n := by
  simp only [outgoing]
  rw [node?_addNode]
  split
  · rename_i h; simp [h, node?_size]
  · rfl

theorem incoming_addNode (g : FlowGraph α) (data : α) (group : Option Nat) (n : Nat) :
    (g.addNode data group).1.incoming n = g.incoming n := by
  simp only [incoming]
  rw [node?_addNode]
  split
  · rename_i h; simp [h, node?_size]
  · rfl

theorem group?_addNode (g : FlowGraph α) (data : α) (group : Option Nat) (c : Nat) :
    (g.addNode data group).1.group? c =
      if group = some c then (g.group? c).map fun x => { x with members := x.members ++ [g.nodes.size] }
      else g.group? c := by
  cases group with
  | none => simp [addNode, group?]
  | some d =>
    by_cases hd : d < g.groups.size
    · simp [addNode, group?, Option.filter, hd, Array.getElem?_modify]
    · by_cases hdc : d = c
      · subst hdc; simp [addNode, group?, Option.filter, hd]
      · simp [addNode, group?, Option.filter, hd, hdc]

theorem members_addNode (g : FlowGraph α) (data : α) (group : Option Nat) (c : Nat) :
    (g.addNode data group).1.members c =
      if group = some c ∧ c < g.groups.size then g.members c ++ [g.nodes.size] else g.members c := by
  simp only [members]
  rw [group?_addNode]
  by_cases hc : c < g.groups.size
  · by_cases hg : group = some c <;> simp [hc, hg, group?]
  · by_cases hg : group = some c <;> simp [hc, hg, group?]

theorem WellFormed.addNode {g : FlowGraph α} (w : g.WellFormed) (data : α) (group : Option Nat) :
    (g.addNode data group).1.WellFormed where
  mem_outgoing {n k} := by rw [outgoing_addNode]; exact w.mem_outgoing
  mem_incoming {n k} := by rw [incoming_addNode]; exact w.mem_incoming
  outgoing_nodup n := by rw [outgoing_addNode]; exact w.outgoing_nodup n
  incoming_nodup n := by rw [incoming_addNode]; exact w.incoming_nodup n
  no_loop := w.no_loop
  one_edge := w.one_edge
  capacity_pos := w.capacity_pos
  mem_members {c n} := by
    have hm : n ∈ g.members c → n ≠ g.nodes.size := by
      intro h e
      rw [e, w.mem_members, node?_size] at h
      cases h
    rw [members_addNode, node?_addNode]
    by_cases hn : n = g.nodes.size
    · subst hn
      have hv : g.nodes.size ∉ g.members c := fun h => hm h rfl
      cases group with
      | none => simp [hv]
      | some d =>
        by_cases hd : d = c
        · subst hd
          by_cases hs : d < g.groups.size <;> simp [hv, hs, Option.filter]
        · by_cases hs : d < g.groups.size <;> simp [hv, hd, hs, Option.filter]
    · simp only [hn, if_false]
      rw [← w.mem_members]
      split <;> simp [hn]
  members_nodup c := by
    rw [members_addNode]
    split
    · have hv : g.nodes.size ∉ g.members c := by
        intro h
        rw [w.mem_members, node?_size] at h
        cases h
      refine List.nodup_append.2 ⟨w.members_nodup c, by simp, ?_⟩
      intro a ha b hb e
      obtain rfl := List.mem_singleton.1 hb
      exact hv (e ▸ ha)
    · exact w.members_nodup c

/-! Links -/

def connect (g : FlowGraph α) (source target capacity : Nat) : FlowGraph α :=
  let key := g.edges.nextKey
  { g with
    edges := g.edges.insert { source, target, capacity }
    nodes := (g.nodes.modify source fun n => { n with outgoing := n.outgoing ++ [key] }).modify target
      fun n => { n with incoming := n.incoming ++ [key] } }

structure Linkable [Bounded α] (g : FlowGraph α) (source target : Nat) : Prop where
  ne : source ≠ target
  source_isSome : (g.node? source).isSome = true
  target_isSome : (g.node? target).isSome = true
  unlinked : g.findEdge? source target = none
  room : 0 < min (g.remaining source) (g.remaining target)

instance [Bounded α] (g : FlowGraph α) (s t : Nat) : Decidable (g.Linkable s t) :=
  decidable_of_iff (s ≠ t ∧ (g.node? s).isSome = true ∧ (g.node? t).isSome = true ∧
      g.findEdge? s t = none ∧ 0 < min (g.remaining s) (g.remaining t))
    ⟨fun ⟨a, b, c, d, e⟩ => ⟨a, b, c, d, e⟩, fun h =>
      ⟨h.ne, h.source_isSome, h.target_isSome, h.unlinked, h.room⟩⟩

theorem link_eq_connect [Bounded α] {g : FlowGraph α} {s t : Nat} (h : g.Linkable s t) :
    g.link s t =
      (g.connect s t (min (g.remaining s) (g.remaining t)), some g.edges.nextKey) := by
  have hr : min (g.remaining s) (g.remaining t) ≠ 0 := Nat.ne_of_gt h.room
  have hs := Option.isSome_iff_ne_none.1 h.source_isSome
  have ht := Option.isSome_iff_ne_none.1 h.target_isSome
  simp [link, connect, h.ne, hs, ht, h.unlinked, hr]

theorem link_eq_self [Bounded α] {g : FlowGraph α} {s t : Nat} (h : ¬ g.Linkable s t) :
    g.link s t = (g, none) := by
  rw [link]
  split
  · rfl
  · rename_i hb
    dsimp only
    split
    · rfl
    · rename_i hc
      refine absurd ⟨?_, ?_, ?_, ?_, Nat.pos_of_ne_zero hc⟩ h <;>
        simp_all [Option.isSome_iff_ne_none]

theorem edge?_connect (g : FlowGraph α) (s t c k : Nat) :
    (g.connect s t c).edge? k =
      if k = g.edges.nextKey then some { source := s, target := t, capacity := c } else g.edge? k :=
  Arena.get?_insert _ _ _

theorem sameFrame_connect (g : FlowGraph α) (s t c : Nat) : SameFrame g (g.connect s t c) where
  card n := by
    simp only [connect, node?, Array.getElem?_modify]
    cases g.nodes[n]? <;> by_cases hs : s = n <;> by_cases ht : t = n <;> simp [hs, ht, Node.card]
  groups := rfl

theorem outgoing_connect {g : FlowGraph α} {s : Nat} (hs : (g.node? s).isSome = true) (t c n : Nat) :
    (g.connect s t c).outgoing n =
      if n = s then g.outgoing n ++ [g.edges.nextKey] else g.outgoing n := by
  obtain ⟨x, hx⟩ := Option.isSome_iff_exists.1 hs
  have hx : g.nodes[s]? = some x := hx
  simp only [outgoing, connect, node?, Array.getElem?_modify]
  by_cases hn : n = s
  · subst hn
    by_cases ht : t = n <;> simp [ht, hx]
  · cases g.nodes[n]? <;> by_cases ht : t = n <;> simp [ht, hn, Ne.symm hn]

theorem incoming_connect {g : FlowGraph α} {t : Nat} (ht : (g.node? t).isSome = true) (s c n : Nat) :
    (g.connect s t c).incoming n =
      if n = t then g.incoming n ++ [g.edges.nextKey] else g.incoming n := by
  obtain ⟨x, hx⟩ := Option.isSome_iff_exists.1 ht
  have hx : g.nodes[t]? = some x := hx
  simp only [incoming, connect, node?, Array.getElem?_modify]
  by_cases hn : n = t
  · subst hn
    by_cases hs : s = n <;> simp [hs, hx]
  · cases g.nodes[n]? <;> by_cases hs : s = n <;> simp [hs, hn, Ne.symm hn]

theorem findEdge?_eq_none {g : FlowGraph α} (w : g.WellFormed) {s t : Nat} :
    g.findEdge? s t = none ↔ ∀ k e, g.edge? k = some e → e.source = s → e.target ≠ t := by
  rw [findEdge?]
  rw [List.find?_eq_none]
  constructor
  · intro h k e he hs ht
    refine h k (w.mem_outgoing.2 ⟨e, he, hs⟩) ?_
    simp [he, ht]
  · intro h k hk ha
    obtain ⟨e, he, hs⟩ := w.mem_outgoing.1 hk
    exact h k e he hs (by simpa [he] using ha)

theorem WellFormed.nextKey_notMem {g : FlowGraph α} (w : g.WellFormed) (n : Nat) :
    g.edges.nextKey ∉ g.outgoing n ∧ g.edges.nextKey ∉ g.incoming n := by
  have hv : g.edge? g.edges.nextKey = none := Arena.get?_nextKey _
  constructor
  · intro h
    obtain ⟨e, he, -⟩ := w.mem_outgoing.1 h
    simp [hv] at he
  · intro h
    obtain ⟨e, he, -⟩ := w.mem_incoming.1 h
    simp [hv] at he

/-- The keys of the edges with the end `n` are still that when a new edge adds its own key to them. -/
theorem keys_connect {g : FlowGraph α} {n : Nat} {keys : List Nat} (endOf : Edge → Nat)
    (hkeys : ∀ k, k ∈ keys ↔ ∃ e, g.edge? k = some e ∧ endOf e = n) (hnodup : keys.Nodup)
    (hfresh : g.edges.nextKey ∉ keys) (s t c : Nat) {grown : List Nat}
    (hgrown : grown = if n = endOf ⟨s, t, c, 0⟩ then keys ++ [g.edges.nextKey] else keys) :
    (∀ k, k ∈ grown ↔ ∃ e, (g.connect s t c).edge? k = some e ∧ endOf e = n) ∧ grown.Nodup := by
  subst hgrown
  constructor
  · intro k
    rw [edge?_connect]
    by_cases hk : k = g.edges.nextKey
    · subst hk
      by_cases hn : n = endOf ⟨s, t, c, 0⟩ <;> simp [hn, hfresh, eq_comm]
    · simp only [hk, if_false]
      rw [← hkeys]
      split <;> simp [hk]
  · split
    · rw [← List.concat_eq_append]
      exact hnodup.concat hfresh
    · exact hnodup

theorem WellFormed.one_edge_connect {g : FlowGraph α} (w : g.WellFormed) {s t c : Nat}
    (hu : g.findEdge? s t = none) {j k : Nat} {e f : Edge}
    (hj : (g.connect s t c).edge? j = some e) (hk : (g.connect s t c).edge? k = some f)
    (hsource : e.source = f.source) (htarget : e.target = f.target) : j = k := by
  have hold := (findEdge?_eq_none w).1 hu
  rw [edge?_connect] at hj hk
  by_cases h1 : j = g.edges.nextKey <;> by_cases h2 : k = g.edges.nextKey
  · rw [h1, h2]
  · simp only [h1, h2, if_true, if_false, Option.some.injEq] at hj hk
    subst hj
    exact absurd htarget.symm (hold k f hk hsource.symm)
  · simp only [h1, h2, if_true, if_false, Option.some.injEq] at hj hk
    subst hk
    exact absurd htarget (hold j e hj hsource)
  · simp only [h1, h2, if_false] at hj hk
    exact w.one_edge hj hk hsource htarget

theorem WellFormed.connect {g : FlowGraph α} (w : g.WellFormed) {s t c : Nat} (hne : s ≠ t)
    (hs : (g.node? s).isSome = true) (ht : (g.node? t).isSome = true)
    (hu : g.findEdge? s t = none) (hc : 0 < c) : (g.connect s t c).WellFormed := by
  have out := fun n => keys_connect (·.source) (fun _ => w.mem_outgoing) (w.outgoing_nodup n)
    (w.nextKey_notMem n).1 s t c (outgoing_connect hs t c n)
  have inc := fun n => keys_connect (·.target) (fun _ => w.mem_incoming) (w.incoming_nodup n)
    (w.nextKey_notMem n).2 s t c (incoming_connect ht s c n)
  exact {
    mem_outgoing := fun {n k} => (out n).1 k
    mem_incoming := fun {n k} => (inc n).1 k
    outgoing_nodup := fun n => (out n).2
    incoming_nodup := fun n => (inc n).2
    no_loop := fun {k e} h => by
      rw [edge?_connect] at h
      split at h
      · cases h; exact hne
      · exact w.no_loop h
    one_edge := w.one_edge_connect hu
    capacity_pos := fun {k e} h => by
      rw [edge?_connect] at h
      split at h
      · cases h; exact hc
      · exact w.capacity_pos h
    mem_members := fun {d n} => by
      rw [(sameFrame_connect g s t c).members, (sameFrame_connect g s t c).group]
      exact w.mem_members
    members_nodup := fun d => by
      rw [(sameFrame_connect g s t c).members]
      exact w.members_nodup d }

theorem WellFormed.link [Bounded α] {g : FlowGraph α} (w : g.WellFormed) (s t : Nat) :
    (g.link s t).1.WellFormed := by
  by_cases h : g.Linkable s t
  · rw [link_eq_connect h]
    exact w.connect h.ne h.source_isSome h.target_isSome h.unlinked h.room
  · rw [link_eq_self h]
    exact w

theorem sameFrame_link [Bounded α] (g : FlowGraph α) (s t : Nat) : SameFrame g (g.link s t).1 := by
  by_cases h : g.Linkable s t
  · rw [link_eq_connect h]
    exact sameFrame_connect g s t _
  · rw [link_eq_self h]
    exact SameFrame.refl g

/-! Flow -/

theorem edge?_of_ends {g h : FlowGraph α}
    (he : ∀ k, (h.edge? k).map Edge.ends = (g.edge? k).map Edge.ends) {k : Nat} {e : Edge}
    (hk : h.edge? k = some e) :
    ∃ f, g.edge? k = some f ∧ f.source = e.source ∧ f.target = e.target ∧
      f.capacity = e.capacity := by
  have hends := he k
  rw [hk] at hends
  obtain ⟨f, hf, hfe⟩ := Option.map_eq_some_iff.1 hends.symm
  exact ⟨f, hf, by simpa [Edge.ends] using hfe⟩

/-- Edges that differ in flow alone keep a graph well-formed. -/
theorem WellFormed.of_ends {g h : FlowGraph α} (w : g.WellFormed) (hn : h.nodes = g.nodes)
    (hg : h.groups = g.groups) (he : ∀ k, (h.edge? k).map Edge.ends = (g.edge? k).map Edge.ends) :
    h.WellFormed := by
  have ho : h.outgoing = g.outgoing := by funext n; simp [outgoing, node?, hn]
  have hi : h.incoming = g.incoming := by funext n; simp [incoming, node?, hn]
  have hm : h.members = g.members := by funext n; simp [members, group?, hg]
  have hd : h.node? = g.node? := by funext n; simp [node?, hn]
  constructor
  · intro n k
    rw [ho, w.mem_outgoing]
    constructor
    · rintro ⟨f, hf, rfl⟩
      obtain ⟨e, h1, h2, -, -⟩ := edge?_of_ends (fun k => (he k).symm) hf
      exact ⟨e, h1, h2⟩
    · rintro ⟨e, h1, rfl⟩
      obtain ⟨f, hf, h2, -⟩ := edge?_of_ends he h1
      exact ⟨f, hf, h2⟩
  · intro n k
    rw [hi, w.mem_incoming]
    constructor
    · rintro ⟨f, hf, rfl⟩
      obtain ⟨e, h1, -, h2, -⟩ := edge?_of_ends (fun k => (he k).symm) hf
      exact ⟨e, h1, h2⟩
    · rintro ⟨e, h1, rfl⟩
      obtain ⟨f, hf, -, h2, -⟩ := edge?_of_ends he h1
      exact ⟨f, hf, h2⟩
  · rw [ho]; exact w.outgoing_nodup
  · rw [hi]; exact w.incoming_nodup
  · intro k e hk
    obtain ⟨f, hf, h1, h2, -⟩ := edge?_of_ends he hk
    rw [← h1, ← h2]
    exact w.no_loop hf
  · intro j k e f hj hk hs ht
    obtain ⟨e', hj', h1, h2, -⟩ := edge?_of_ends he hj
    obtain ⟨f', hk', h3, h4, -⟩ := edge?_of_ends he hk
    exact w.one_edge hj' hk' (by rw [h1, h3, hs]) (by rw [h2, h4, ht])
  · intro k e hk
    obtain ⟨f, hf, -, -, h3⟩ := edge?_of_ends he hk
    rw [← h3]
    exact w.capacity_pos hf
  · intro c n
    rw [hm, hd]
    exact w.mem_members
  · rw [hm]; exact w.members_nodup

theorem edge?_pushEdge [Bounded α] (s : FlowGraph α × Nat) (key k : Nat) :
    (pushEdge s key).1.edge? k =
      if key = k then (s.1.edge? k).map fun e => e.addFlow (s.1.pushable e) else s.1.edge? k := by
  rw [pushEdge]
  cases h : s.1.edge? key with
  | none =>
    by_cases hk : key = k
    · subst hk; simp [h]
    · simp [hk]
  | some e =>
    by_cases hk : key = k
    · subst hk
      simp only [edge?, Arena.get?_modify, if_true]
      have h : s.1.edges.get? key = some e := h
      simp [h]
    · simp [edge?, Arena.get?_modify, hk]

theorem nodes_pushEdge [Bounded α] (s : FlowGraph α × Nat) (key : Nat) :
    (pushEdge s key).1.nodes = s.1.nodes ∧ (pushEdge s key).1.groups = s.1.groups := by
  rw [pushEdge]
  split <;> exact ⟨rfl, rfl⟩

theorem ends_pushEdge [Bounded α] (s : FlowGraph α × Nat) (key k : Nat) :
    ((pushEdge s key).1.edge? k).map Edge.ends = (s.1.edge? k).map Edge.ends := by
  rw [edge?_pushEdge]
  split
  · cases s.1.edge? k <;> rfl
  · rfl

theorem WellFormed.pushEdge [Bounded α] {s : FlowGraph α × Nat} (w : s.1.WellFormed) (key : Nat) :
    (pushEdge s key).1.WellFormed :=
  w.of_ends (nodes_pushEdge s key).1 (nodes_pushEdge s key).2 (ends_pushEdge s key)

theorem sameFrame_pushEdge [Bounded α] (s : FlowGraph α × Nat) (key : Nat) :
    SameFrame s.1 (pushEdge s key).1 :=
  ⟨fun n => by simp [node?, (nodes_pushEdge s key).1], (nodes_pushEdge s key).2⟩

/-- What holds before a round and is kept by every push holds after the round. -/
theorem pushFlow_induction [Bounded α] {P : FlowGraph α → Prop} {g : FlowGraph α} (start : P g)
    (push : ∀ (s : FlowGraph α × Nat) (key : Nat), P s.1 → P (pushEdge s key).1) : P g.pushFlow.1 := by
  suffices h : ∀ (keys : List Nat) (s : FlowGraph α × Nat), P s.1 → P (keys.foldl pushEdge s).1 from
    h _ (g, 0) start
  intro keys
  induction keys with
  | nil => exact fun _ h => h
  | cons key keys ih => exact fun s h => ih _ (push s key h)

theorem WellFormed.pushFlow [Bounded α] {g : FlowGraph α} (w : g.WellFormed) :
    g.pushFlow.1.WellFormed :=
  pushFlow_induction w fun _ key h => h.pushEdge key

theorem sameFrame_pushFlow [Bounded α] (g : FlowGraph α) : SameFrame g g.pushFlow.1 :=
  pushFlow_induction (SameFrame.refl g) fun s key h => h.trans (sameFrame_pushEdge s key)

theorem ends_pushFlow [Bounded α] (g : FlowGraph α) (k : Nat) :
    (g.pushFlow.1.edge? k).map Edge.ends = (g.edge? k).map Edge.ends :=
  pushFlow_induction (P := fun h => (h.edge? k).map Edge.ends = (g.edge? k).map Edge.ends) rfl
    fun s key h => (ends_pushEdge s key k).trans h

end FlowGraph

end OrderBook

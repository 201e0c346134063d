import OrderBook.Flow.Graph

/-!
Frames: what changes to the edges of a graph leave alone.
-/

namespace OrderBook

variable {α : Type}

def Node.card (x : Node α) : α × Option Nat := (x.data, x.group)

namespace FlowGraph

/-- What changes to edges leave alone: the payloads, who belongs to which group, and the limits. -/
structure SameFrame (g h : FlowGraph α) : Prop where
  card : ∀ n, (h.node? n).map Node.card = (g.node? n).map Node.card
  groups : h.groups = g.groups

namespace SameFrame

theorem refl (g : FlowGraph α) : SameFrame g g := ⟨fun _ => rfl, rfl⟩

theorem trans {g h i : FlowGraph α} (p : SameFrame g h) (q : SameFrame h i) : SameFrame g i :=
  ⟨fun n => (q.card n).trans (p.card n), q.groups.trans p.groups⟩

theorem payload {g h : FlowGraph α} (p : SameFrame g h) (n : Nat) :
    (h.node? n).map (·.data) = (g.node? n).map (·.data) := by
  have := congrArg (Option.map Prod.fst) (p.card n)
  simpa only [Option.map_map, Function.comp_def, Node.card] using this

theorem group {g h : FlowGraph α} (p : SameFrame g h) (n : Nat) :
    (h.node? n).bind (·.group) = (g.node? n).bind (·.group) := by
  have := congrArg (fun x : Option (α × Option Nat) => x.bind Prod.snd) (p.card n)
  simpa only [Option.bind_map, Function.comp_def, Node.card] using this

theorem members {g h : FlowGraph α} (p : SameFrame g h) (c : Nat) : h.members c = g.members c := by
  simp [FlowGraph.members, group?, p.groups]

theorem room [Bounded α] {g h : FlowGraph α} (p : SameFrame g h) (n used : Nat)
    (groupUsed : Nat → Nat) : h.room n used groupUsed = g.room n used groupUsed := by
  have hc := p.card n
  simp only [FlowGraph.room]
  cases hg : g.node? n with
  | none =>
    cases hh : h.node? n with
    | none => rfl
    | some y => simp [hg, hh] at hc
  | some x =>
    cases hh : h.node? n with
    | none => simp [hg, hh] at hc
    | some y =>
      obtain ⟨hd, hgr⟩ : y.data = x.data ∧ y.group = x.group := by
        simpa [hg, hh, Node.card] using hc
      simp only [hd, hgr, group?, p.groups]

end SameFrame

end FlowGraph

end OrderBook

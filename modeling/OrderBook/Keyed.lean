/-!
Collections ordered by a key: entries in ascending order of their key, one entry per key. Adding an
entry replaces the one with its key.
-/

namespace OrderBook

structure Keyed {α : Type} (key : α → String) where
  entries : List α
  ascending : entries.Pairwise fun a b => key a < key b

namespace Keyed

variable {α : Type} {key : α → String}

instance : Inhabited (Keyed key) := ⟨⟨[], .nil⟩⟩

instance [DecidableEq α] : DecidableEq (Keyed key) := fun a b =>
  match decEq a.entries b.entries with
  | isTrue h => isTrue (by cases a; cases b; cases h; rfl)
  | isFalse h => isFalse fun e => h (congrArg entries e)

def empty : Keyed key := ⟨[], .nil⟩

/-- Puts `x` in its place in an ascending list. -/
def place (key : α → String) (x : α) : List α → List α
  | [] => [x]
  | y :: ys =>
    if key x < key y then x :: y :: ys
    else if key x = key y then x :: ys
    else y :: place key x ys

theorem mem_place {x y : α} {ys : List α} (h : y ∈ place key x ys) : y = x ∨ y ∈ ys := by
  induction ys with
  | nil => simpa [place] using h
  | cons z zs ih =>
    simp only [place] at h
    split at h
    · simpa using h
    · split at h
      · rcases List.mem_cons.1 h with h | h
        · exact .inl h
        · exact .inr (List.mem_cons_of_mem _ h)
      · rcases List.mem_cons.1 h with h | h
        · exact .inr (h ▸ List.mem_cons_self)
        · exact (ih h).imp_right (List.mem_cons_of_mem _)

theorem place_ascending (x : α) {ys : List α} (h : ys.Pairwise fun a b => key a < key b) :
    (place key x ys).Pairwise fun a b => key a < key b := by
  induction ys with
  | nil => exact List.pairwise_singleton _ _
  | cons y ys ih =>
    have hy := List.pairwise_cons.1 h
    simp only [place]
    split
    · rename_i lt
      refine List.pairwise_cons.2 ⟨fun z hz => ?_, h⟩
      rcases List.mem_cons.1 hz with rfl | hz
      · exact lt
      · exact String.lt_trans lt (hy.1 z hz)
    · split
      · rename_i eq
        exact List.pairwise_cons.2 ⟨fun z hz => eq ▸ hy.1 z hz, hy.2⟩
      · rename_i nlt ne
        refine List.pairwise_cons.2 ⟨fun z hz => ?_, ih hy.2⟩
        rcases mem_place hz with rfl | hz
        · exact Decidable.byContradiction fun ngt =>
            ne (String.le_antisymm (String.not_lt.1 ngt) (String.not_lt.1 nlt))
        · exact hy.1 z hz

def insert (x : α) (m : Keyed key) : Keyed key :=
  ⟨place key x m.entries, place_ascending x m.ascending⟩

def ofList (xs : List α) : Keyed key := xs.foldl (fun m x => m.insert x) empty

def find? (k : String) (m : Keyed key) : Option α := m.entries.find? fun x => key x == k

def size (m : Keyed key) : Nat := m.entries.length

theorem find?_key {k : String} {m : Keyed key} {x : α} (h : m.find? k = some x) : key x = k := by
  simpa using List.find?_some h

end Keyed

end OrderBook

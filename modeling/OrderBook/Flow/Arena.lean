/-!
Numbered slots whose numbers are used again: a value gets the number that was given back last, or a
new one behind all others.
-/

namespace OrderBook

-- The zero of sums is the literal.
attribute [local instance (high)] Zero.ofOfNat0

structure Arena (α : Type) where
  slots : Array (Option α) := #[]
  /-- Numbers given back, the latest first. -/
  free : List Nat := []
  free_nodup : free.Nodup := by exact List.nodup_nil
  free_vacant : ∀ k ∈ free, slots[k]? = some none := by simp

namespace Arena

variable {α : Type}

instance : Inhabited (Arena α) := ⟨{}⟩

def get? (a : Arena α) (k : Nat) : Option α := (a.slots[k]?).join

theorem lt_size_of_get? {a : Arena α} {k : Nat} {x : α} (h : a.get? k = some x) :
    k < a.slots.size := by
  refine Decidable.byContradiction fun n => ?_
  simp [get?, Array.getElem?_eq_none (Nat.le_of_not_lt n)] at h

/-- The number that the next value gets. -/
def nextKey (a : Arena α) : Nat := a.free.headD a.slots.size

def insert (a : Arena α) (x : α) : Arena α :=
  match h : a.free with
  | [] => { slots := a.slots.push (some x) }
  | k :: rest =>
    { slots := a.slots.setIfInBounds k (some x)
      free := rest
      free_nodup := (List.nodup_cons.1 (h ▸ a.free_nodup)).2
      free_vacant := fun j hj => by
        have hne : k ≠ j := fun e => (List.nodup_cons.1 (h ▸ a.free_nodup)).1 (e ▸ hj)
        rw [Array.getElem?_setIfInBounds_ne hne]
        exact a.free_vacant j (h ▸ List.mem_cons_of_mem _ hj) }

/-- Changes the value at `k`, if there is one. -/
def modify (a : Arena α) (k : Nat) (f : α → α) : Arena α :=
  match h : a.get? k with
  | none => a
  | some x =>
    { a with
      slots := a.slots.setIfInBounds k (some (f x))
      free_vacant := fun j hj => by
        have hv := a.free_vacant j hj
        have hne : k ≠ j := fun e => by simp [get?, e, hv] at h
        rw [Array.getElem?_setIfInBounds_ne hne]
        exact hv }

def remove (a : Arena α) (k : Nat) : Arena α :=
  match h : a.get? k with
  | none => a
  | some _ =>
    { slots := a.slots.setIfInBounds k none
      free := k :: a.free
      free_nodup := List.nodup_cons.2
        ⟨fun hk => by simp [get?, a.free_vacant k hk] at h, a.free_nodup⟩
      free_vacant := fun j hj => by
        by_cases e : k = j
        · simp [← e, Array.getElem?_setIfInBounds_self_of_lt (lt_size_of_get? h)]
        · rw [Array.getElem?_setIfInBounds_ne e]
          exact a.free_vacant j ((List.mem_cons.1 hj).resolve_left (Ne.symm e)) }

/-- The numbers in use, in ascending order. -/
def keys (a : Arena α) : List Nat := (List.range a.slots.size).filter fun k => (a.get? k).isSome

/-- The numbers in use with their values, in ascending order of the numbers. -/
def entries (a : Arena α) : List (Nat × α) :=
  (List.range a.slots.size).filterMap fun k => (a.get? k).map (k, ·)

def values (a : Arena α) : List α := a.slots.toList.filterMap id

def size (a : Arena α) : Nat := a.values.length

theorem slots_of_get? {a : Arena α} {k : Nat} {x : α} (h : a.get? k = some x) :
    a.slots[k]? = some (some x) := by
  simpa [get?, Option.join_eq_some_iff] using h

theorem slots_modify {a : Arena α} {k : Nat} {x : α} (f : α → α) (h : a.get? k = some x) :
    (a.modify k f).slots = a.slots.setIfInBounds k (some (f x)) := by
  unfold modify
  split
  · rename_i e; simp [e] at h
  · rename_i y e; cases h.symm.trans e; rfl

theorem slots_remove {a : Arena α} {k : Nat} {x : α} (h : a.get? k = some x) :
    (a.remove k).slots = a.slots.setIfInBounds k none := by
  unfold remove
  split
  · rename_i e; simp [e] at h
  · rfl

theorem modify_eq_self {a : Arena α} {k : Nat} (f : α → α) (h : a.get? k = none) :
    a.modify k f = a := by
  unfold modify
  split
  · rfl
  · rename_i e; simp [h] at e

theorem remove_eq_self {a : Arena α} {k : Nat} (h : a.get? k = none) : a.remove k = a := by
  unfold remove
  split
  · rfl
  · rename_i e; simp [h] at e

theorem get?_modify_self (a : Arena α) (k : Nat) (f : α → α) :
    (a.modify k f).get? k = (a.get? k).map f := by
  cases h : a.get? k with
  | none => simp [modify_eq_self f h, h]
  | some x =>
    rw [get?, slots_modify f h]
    simp [Array.getElem?_setIfInBounds_self_of_lt (lt_size_of_get? h)]

theorem get?_modify_ne (a : Arena α) {k j : Nat} (f : α → α) (h : k ≠ j) :
    (a.modify k f).get? j = a.get? j := by
  cases e : a.get? k with
  | none => rw [modify_eq_self f e]
  | some x => simp [get?, slots_modify f e, Array.getElem?_setIfInBounds_ne h]

theorem get?_remove_self (a : Arena α) (k : Nat) : (a.remove k).get? k = none := by
  cases h : a.get? k with
  | none => rw [remove_eq_self h, h]
  | some x =>
    simp [get?, slots_remove h, Array.getElem?_setIfInBounds_self_of_lt (lt_size_of_get? h)]

theorem get?_remove_ne (a : Arena α) {k j : Nat} (h : k ≠ j) :
    (a.remove k).get? j = a.get? j := by
  cases e : a.get? k with
  | none => rw [remove_eq_self e]
  | some x => simp [get?, slots_remove e, Array.getElem?_setIfInBounds_ne h]

/-- A weight summed over all values. -/
def total (w : α → Nat) (a : Arena α) : Nat := (a.slots.toList.map fun o => o.elim 0 w).sum

/-- Changing one element changes a sum by the difference of the two terms. -/
theorem sum_map_set {β : Type} (f : β → Nat) {l : List β} {k : Nat} {x : β} (h : l[k]? = some x)
    (y : β) : ((l.set k y).map f).sum + f x = (l.map f).sum + f y := by
  induction l generalizing k with
  | nil => simp at h
  | cons z zs ih =>
    cases k with
    | zero =>
      obtain rfl : z = x := by simpa only [List.getElem?_cons_zero, Option.some.injEq] using h
      simp only [List.set_cons_zero, List.map_cons, List.sum_cons]
      omega
    | succ k =>
      have := ih (k := k) (by simpa only [List.getElem?_cons_succ] using h)
      simp only [List.set_cons_succ, List.map_cons, List.sum_cons]
      omega

theorem total_modify (w : α → Nat) {a : Arena α} {k : Nat} {x : α} (f : α → α)
    (h : a.get? k = some x) : (a.modify k f).total w + w x = a.total w + w (f x) := by
  have hs : a.slots.toList[k]? = some (some x) := by simpa using slots_of_get? h
  rw [total, slots_modify f h, Array.toList_setIfInBounds]
  exact sum_map_set (fun o => o.elim 0 w) hs (some (f x))

theorem total_remove (w : α → Nat) {a : Arena α} {k : Nat} {x : α} (h : a.get? k = some x) :
    (a.remove k).total w + w x = a.total w := by
  have hs : a.slots.toList[k]? = some (some x) := by simpa using slots_of_get? h
  rw [total, slots_remove h, Array.toList_setIfInBounds]
  exact sum_map_set (fun o => o.elim 0 w) hs none

theorem total_remove_le (w : α → Nat) (a : Arena α) (k : Nat) :
    (a.remove k).total w ≤ a.total w := by
  cases h : a.get? k with
  | none => exact Nat.le_of_eq (by rw [remove_eq_self h])
  | some x => exact Nat.le_of_add_right_le (Nat.le_of_eq (total_remove w h))

end Arena

end OrderBook

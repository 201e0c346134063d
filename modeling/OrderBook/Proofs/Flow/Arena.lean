import OrderBook.Flow.Arena

/-!
Arenas seen from outside: what a number holds after a value was put in, which numbers are in use,
and sums over everything an arena holds.
-/

namespace OrderBook.Arena

-- The zero of sums is the literal.
attribute [local instance (high)] Zero.ofOfNat0

variable {α : Type}

theorem get?_nextKey (a : Arena α) : a.get? a.nextKey = none := by
  cases h : a.free with
  | nil => simp [get?, nextKey, h]
  | cons k rest =>
    have hv := a.free_vacant k (by simp [h])
    simp [get?, nextKey, h, hv]

theorem slots_insert_nil {a : Arena α} (x : α) (h : a.free = []) :
    (a.insert x).slots = a.slots.push (some x) ∧ (a.insert x).free = [] := by
  rw [insert]
  split
  · exact ⟨rfl, rfl⟩
  · rename_i e; simp [h] at e

theorem slots_insert_cons {a : Arena α} (x : α) {k : Nat} {rest : List Nat}
    (h : a.free = k :: rest) :
    (a.insert x).slots = a.slots.setIfInBounds k (some x) ∧ (a.insert x).free = rest := by
  rw [insert]
  split
  · rename_i e; simp [h] at e
  · rename_i e
    obtain ⟨rfl, rfl⟩ := List.cons.inj (h.symm.trans e)
    exact ⟨rfl, rfl⟩

theorem lt_size_of_free {a : Arena α} {k : Nat} (h : k ∈ a.free) : k < a.slots.size := by
  have hv := a.free_vacant k h
  exact (Array.getElem?_eq_some_iff.1 hv).1

theorem get?_insert_self (a : Arena α) (x : α) : (a.insert x).get? a.nextKey = some x := by
  cases h : a.free with
  | nil => simp [get?, nextKey, h, (slots_insert_nil x h).1]
  | cons k rest =>
    have hk : k < a.slots.size := lt_size_of_free (by simp [h])
    simp [get?, nextKey, h, (slots_insert_cons x h).1, Array.getElem?_setIfInBounds_self_of_lt hk]

theorem get?_insert_ne (a : Arena α) (x : α) {k : Nat} (hk : k ≠ a.nextKey) :
    (a.insert x).get? k = a.get? k := by
  cases h : a.free with
  | nil =>
    have hne : k ≠ a.slots.size := by simpa [nextKey, h] using hk
    simp [get?, (slots_insert_nil x h).1, Array.getElem?_push, hne]
  | cons j rest =>
    have hne : j ≠ k := by simpa [nextKey, h, eq_comm] using hk
    simp [get?, (slots_insert_cons x h).1, Array.getElem?_setIfInBounds_ne hne]

theorem get?_insert (a : Arena α) (x : α) (k : Nat) :
    (a.insert x).get? k = if k = a.nextKey then some x else a.get? k := by
  split
  · rename_i h; rw [h, get?_insert_self]
  · rename_i h; exact get?_insert_ne a x h

theorem get?_modify (a : Arena α) (k j : Nat) (f : α → α) :
    (a.modify k f).get? j = if k = j then (a.get? j).map f else a.get? j := by
  split
  · rename_i h; rw [← h, get?_modify_self]
  · rename_i h; exact get?_modify_ne a f h

theorem get?_remove (a : Arena α) (k j : Nat) :
    (a.remove k).get? j = if k = j then none else a.get? j := by
  split
  · rename_i h; rw [← h, get?_remove_self]
  · rename_i h; exact get?_remove_ne a h

/-! Numbers and entries -/

theorem mem_keys {a : Arena α} {k : Nat} : k ∈ a.keys ↔ (a.get? k).isSome = true := by
  rw [keys]
  rw [List.mem_filter, List.mem_range]
  constructor
  · exact fun h => h.2
  · intro h
    obtain ⟨x, hx⟩ := Option.isSome_iff_exists.1 h
    exact ⟨lt_size_of_get? hx, h⟩

theorem mem_entries {a : Arena α} {k : Nat} {x : α} : (k, x) ∈ a.entries ↔ a.get? k = some x := by
  rw [entries]
  rw [List.mem_filterMap]
  constructor
  · rintro ⟨j, -, hj⟩
    obtain ⟨y, hy, he⟩ := Option.map_eq_some_iff.1 hj
    obtain ⟨rfl, rfl⟩ := Prod.mk.inj he
    exact hy
  · intro h
    exact ⟨k, List.mem_range.2 (lt_size_of_get? h), by simp [h]⟩

theorem entries_ascending (a : Arena α) : a.entries.Pairwise fun x y => x.1 < y.1 := by
  refine List.Pairwise.filterMap _ ?_ List.pairwise_lt_range
  intro i j hij x hx y hy
  obtain ⟨u, -, rfl⟩ := Option.map_eq_some_iff.1 hx
  obtain ⟨v, -, rfl⟩ := Option.map_eq_some_iff.1 hy
  exact hij

theorem map_fst_entries (a : Arena α) : a.entries.map Prod.fst = a.keys := by
  rw [entries, keys]
  induction List.range a.slots.size with
  | nil => rfl
  | cons k ks ih =>
    cases h : a.get? k with
    | none => simpa [h] using ih
    | some x => simpa [h] using ih

theorem nodup_keys (a : Arena α) : a.keys.Nodup := List.nodup_range.filter _

theorem eq_of_ascending {l m : List (Nat × α)} (hl : l.Pairwise fun x y => x.1 < y.1)
    (hm : m.Pairwise fun x y => x.1 < y.1) (h : ∀ x, x ∈ l ↔ x ∈ m) : l = m := by
  have irrefl : ∀ {n : List (Nat × α)}, n.Pairwise (fun x y => x.1 < y.1) → n.Nodup := by
    intro n hn
    exact hn.imp fun {x y} hxy e => by subst e; exact Nat.lt_irrefl _ hxy
  have hp : l.Perm m := (List.perm_ext_iff_of_nodup (irrefl hl) (irrefl hm)).2 h
  have asymm : ∀ x y : Nat × α, x ∈ l → y ∈ m → x.1 < y.1 → y.1 < x.1 → x = y := by
    intro x y _ _ hxy hyx
    exact absurd hxy (Nat.lt_asymm hyx)
  exact List.Perm.eq_of_pairwise asymm hl hm hp

theorem entries_modify (a : Arena α) (k : Nat) (f : α → α) :
    (a.modify k f).entries = a.entries.map fun x => if x.1 = k then (x.1, f x.2) else x := by
  have fst : ∀ x : Nat × α, (if x.1 = k then (x.1, f x.2) else x).1 = x.1 := by
    intro x; split <;> rfl
  refine eq_of_ascending (entries_ascending _) ?_ ?_
  · refine List.pairwise_map.2 ((entries_ascending a).imp ?_)
    intro x y hxy
    rwa [fst, fst]
  · rintro ⟨j, y⟩
    rw [mem_entries, get?_modify, List.mem_map]
    constructor
    · intro h
      by_cases hjk : k = j
      · obtain ⟨x, hx, rfl⟩ := Option.map_eq_some_iff.1 (by simpa [hjk] using h)
        exact ⟨(j, x), mem_entries.2 hx, by simp [hjk]⟩
      · have hx : a.get? j = some y := by simpa [hjk] using h
        exact ⟨(j, y), mem_entries.2 hx, by simp [Ne.symm hjk]⟩
    · rintro ⟨⟨i, x⟩, hx, he⟩
      have hx := mem_entries.1 hx
      by_cases hik : i = k
      · subst hik
        obtain ⟨rfl, rfl⟩ : i = j ∧ f x = y := by simpa using he
        simp [hx]
      · obtain ⟨rfl, rfl⟩ : i = j ∧ x = y := by simpa [hik] using he
        simp [Ne.symm hik, hx]

theorem free_insert_nil {a : Arena α} (x : α) (h : a.free = []) : (a.insert x).free = [] := by
  rw [insert]
  split
  · rfl
  · rename_i hc
    rw [h] at hc
    cases hc

/-- An arena from which nothing was taken puts a new value last. -/
theorem entries_insert_nil {a : Arena α} (x : α) (h : a.free = []) :
    (a.insert x).entries = a.entries ++ [(a.nextKey, x)] := by
  have hn : a.nextKey = a.slots.size := by simp [nextKey, h]
  refine eq_of_ascending (entries_ascending _) ?_ ?_
  · refine List.pairwise_append.2 ⟨entries_ascending a, List.pairwise_singleton _ _, ?_⟩
    rintro ⟨i, y⟩ hi z hz
    obtain rfl := List.mem_singleton.1 hz
    exact hn ▸ lt_size_of_get? (mem_entries.1 hi)
  · rintro ⟨j, y⟩
    rw [mem_entries, get?_insert, List.mem_append, List.mem_singleton, mem_entries]
    by_cases hj : j = a.nextKey
    · subst hj
      simp [get?_nextKey, eq_comm]
    · simp [hj]

end OrderBook.Arena

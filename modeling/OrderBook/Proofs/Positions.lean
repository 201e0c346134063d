import Mathlib.Data.List.Forall2

/-!
Lists taken apart by positions.
-/

namespace OrderBook

variable {α β γ : Type}

theorem filterMap_getElem?_range (l : List α) : (List.range l.length).filterMap (l[·]?) = l := by
  induction l with
  | nil => rfl
  | cons x l ih =>
    rw [List.length_cons, List.range_succ_eq_map, List.filterMap_cons]
    simp only [List.getElem?_cons_zero, List.filterMap_map, Function.comp_def,
      List.getElem?_cons_succ]
    rw [ih]

theorem countP_range {l : List α} {f : Nat → Bool} {g : α → Bool}
    (h : ∀ k x, l[k]? = some x → f k = g x) : (List.range l.length).countP f = l.countP g := by
  conv_rhs => rw [← filterMap_getElem?_range l, List.countP_filterMap]
  refine List.countP_congr fun k hk => ?_
  have hx := List.getElem?_eq_getElem (List.mem_range.1 hk)
  rw [h k _ hx, hx, Option.map_some, Option.getD_some]

/-- The first positions of some kind are those that have not yet enough of them in front. -/
theorem mem_take_filter_range {f : Nat → Bool} {n j b : Nat} :
    j ∈ ((List.range n).filter f).take b ↔ j < n ∧ f j = true ∧ (List.range j).countP f < b := by
  induction n with
  | zero => simp
  | succ n ih =>
    rw [List.range_succ, List.filter_append, List.take_append, List.mem_append, ih,
      ← List.countP_eq_length_filter]
    constructor
    · rintro (⟨hj, hf, hb⟩ | hlast)
      · exact ⟨Nat.lt_succ_of_lt hj, hf, hb⟩
      · obtain ⟨hj, hf⟩ := List.mem_filter.1 (List.mem_of_mem_take hlast)
        obtain rfl := List.mem_singleton.1 hj
        refine ⟨Nat.lt_succ_self j, hf, ?_⟩
        by_contra hge
        rw [Nat.sub_eq_zero_of_le (Nat.not_lt.1 hge), List.take_zero] at hlast
        cases hlast
    · rintro ⟨hj, hf, hb⟩
      rcases Nat.lt_succ_iff_lt_or_eq.1 hj with hj | rfl
      · exact .inl ⟨hj, hf, hb⟩
      · refine .inr ?_
        rw [List.filter_cons_of_pos hf, List.filter_nil, List.take_of_length_le]
        · exact List.mem_singleton_self j
        · rw [List.length_singleton]
          omega

theorem sublist_filterMap_getElem? {l : List α} {is : List Nat}
    (h : is.Sublist (List.range l.length)) : (is.filterMap (l[·]?)).Sublist l := by
  have := h.filterMap (l[·]?)
  rwa [filterMap_getElem?_range] at this

theorem getElem?_filterMap_of_isSome {f : α → Option β} {l : List α}
    (h : ∀ x ∈ l, (f x).isSome = true) (k : Nat) : (l.filterMap f)[k]? = l[k]?.bind f := by
  induction l generalizing k with
  | nil => rfl
  | cons x l ih =>
    obtain ⟨y, hy⟩ := Option.isSome_iff_exists.1 (h x List.mem_cons_self)
    rw [List.filterMap_cons_some hy]
    cases k with
    | zero => simp [hy]
    | succ k => simpa using ih (fun z hz => h z (List.mem_cons_of_mem _ hz)) k

theorem length_filterMap_of_isSome {f : α → Option β} {l : List α}
    (h : ∀ x ∈ l, (f x).isSome = true) : (l.filterMap f).length = l.length := by
  induction l with
  | nil => rfl
  | cons x l ih =>
    obtain ⟨y, hy⟩ := Option.isSome_iff_exists.1 (h x List.mem_cons_self)
    rw [List.filterMap_cons_some hy, List.length_cons, List.length_cons,
      ih fun z hz => h z (List.mem_cons_of_mem _ hz)]

theorem map_eq_map_zipIdx {l : List α} {m : List β} (hlen : l.length = m.length) {f : α → γ}
    {g : β × Nat → γ} (h : ∀ i x y, l[i]? = some x → m[i]? = some y → f x = g (y, i)) :
    l.map f = m.zipIdx.map g := by
  refine List.ext_getElem (by simp [hlen]) fun i hl hm => ?_
  have hl : i < l.length := by simpa using hl
  rw [List.getElem_map, List.getElem_map, List.getElem_zipIdx, Nat.zero_add]
  exact h i _ _ (List.getElem?_eq_getElem hl) (List.getElem?_eq_getElem (hlen ▸ hl))

theorem forall₂_map_filterMap {R : β → γ → Prop} {f : α → β} {g : α → Option γ} {l : List α}
    (h : ∀ x ∈ l, ∃ y, g x = some y ∧ R (f x) y) : List.Forall₂ R (l.map f) (l.filterMap g) := by
  induction l with
  | nil => exact .nil
  | cons x l ih =>
    obtain ⟨y, hy, hr⟩ := h x List.mem_cons_self
    rw [List.map_cons, List.filterMap_cons_some hy]
    exact .cons hr (ih fun z hz => h z (List.mem_cons_of_mem _ hz))

end OrderBook

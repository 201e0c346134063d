/-!
Sums of a weight over those elements of a list that meet a condition.
-/

namespace OrderBook

-- The zero of sums is the literal.
attribute [local instance (high)] Zero.ofOfNat0

variable {β : Type}

def sumWhere (p : β → Bool) (f : β → Nat) (l : List β) : Nat :=
  (l.map fun x => if p x then f x else 0).sum

@[simp] theorem sumWhere_nil (p : β → Bool) (f : β → Nat) : sumWhere p f [] = 0 := rfl

@[simp] theorem sumWhere_cons (p : β → Bool) (f : β → Nat) (x : β) (l : List β) :
    sumWhere p f (x :: l) = (if p x then f x else 0) + sumWhere p f l := by
  simp [sumWhere]

@[simp] theorem sumWhere_append (p : β → Bool) (f : β → Nat) (l m : List β) :
    sumWhere p f (l ++ m) = sumWhere p f l + sumWhere p f m := by
  simp [sumWhere]

theorem sumWhere_congr {p q : β → Bool} {f g : β → Nat} {l : List β}
    (h : ∀ x ∈ l, (if p x then f x else 0) = if q x then g x else 0) :
    sumWhere p f l = sumWhere q g l := by
  simp only [sumWhere]
  rw [List.map_congr_left h]

theorem sumWhere_map {γ : Type} (p : γ → Bool) (f : γ → Nat) (g : β → γ) (l : List β) :
    sumWhere p f (l.map g) = sumWhere (fun x => p (g x)) (fun x => f (g x)) l := by
  simp [sumWhere, Function.comp_def]

theorem sumWhere_eq_filter (p : β → Bool) (f : β → Nat) (l : List β) :
    sumWhere p f l = ((l.filter p).map f).sum := by
  induction l with
  | nil => rfl
  | cons x l ih => by_cases h : p x <;> simp [h, ih]

theorem sumWhere_mono {p q : β → Bool} (f : β → Nat) {l : List β}
    (h : ∀ x ∈ l, p x = true → q x = true) : sumWhere p f l ≤ sumWhere q f l := by
  induction l with
  | nil => exact Nat.le_refl _
  | cons x l ih =>
    have hl := ih fun y hy => h y (List.mem_cons_of_mem _ hy)
    have hx := h x List.mem_cons_self
    rw [sumWhere_cons, sumWhere_cons]
    by_cases hp : p x = true
    · rw [if_pos hp, if_pos (hx hp)]
      omega
    · rw [if_neg hp]
      omega

theorem sumWhere_or {p q : β → Bool} (f : β → Nat) {l : List β}
    (h : ∀ x ∈ l, p x = true → q x = false) :
    sumWhere (fun x => p x || q x) f l = sumWhere p f l + sumWhere q f l := by
  induction l with
  | nil => rfl
  | cons x l ih =>
    have hl := ih fun y hy => h y (List.mem_cons_of_mem _ hy)
    have hx := h x List.mem_cons_self
    rw [sumWhere_cons, sumWhere_cons, sumWhere_cons, hl]
    cases hp : p x with
    | true =>
      rw [hx hp]
      simp
      omega
    | false =>
      simp
      omega

theorem le_sumWhere {p : β → Bool} (f : β → Nat) {l : List β} {x : β} (hx : x ∈ l)
    (hp : p x = true) : f x ≤ sumWhere p f l := by
  induction l with
  | nil => cases hx
  | cons y l ih =>
    rw [sumWhere_cons]
    rcases List.mem_cons.1 hx with rfl | hx
    · simp only [hp, if_true]
      omega
    · exact Nat.le_add_left_of_le (ih hx)

theorem sumWhere_filter (p q : β → Bool) (f : β → Nat) (l : List β) :
    sumWhere p f (l.filter q) = sumWhere (fun x => p x && q x) f l := by
  induction l with
  | nil => rfl
  | cons x l ih =>
    by_cases hq : q x = true <;> by_cases hp : p x = true <;> simp [hp, hq, ih]

theorem sumWhere_filter_le (p q : β → Bool) (f : β → Nat) (l : List β) :
    sumWhere p f (l.filter q) ≤ sumWhere p f l := by
  rw [sumWhere_filter]
  exact sumWhere_mono f fun x _ h => (Bool.and_eq_true_iff.1 h).1

theorem sum_map_filterMap_le {γ : Type} {f : β → Option γ} {v : β → Nat} {w : γ → Nat}
    (l : List β) (h : ∀ x y, f x = some y → w y ≤ v x) :
    ((l.filterMap f).map w).sum ≤ (l.map v).sum := by
  induction l with
  | nil => exact Nat.le_refl _
  | cons x l ih =>
    rw [List.map_cons, List.sum_cons]
    cases hx : f x with
    | none =>
      rw [List.filterMap_cons_none hx]
      exact Nat.le_add_left_of_le ih
    | some y =>
      rw [List.filterMap_cons_some hx, List.map_cons, List.sum_cons]
      exact Nat.add_le_add (h x y hx) ih

/-- Sorting the elements by a label and adding up label by label gives one sum over all elements
whose label is among those looked at. -/
theorem sum_map_sumWhere (label : β → Nat) (f : β → Nat) (l : List β) {ns : List Nat}
    (hn : ns.Nodup) :
    (ns.map fun n => sumWhere (fun x => label x = n) f l).sum =
      sumWhere (fun x => label x ∈ ns) f l := by
  induction ns with
  | nil =>
    induction l with
    | nil => rfl
    | cons x l ih => simpa using ih
  | cons n ns ih =>
    have hns := List.nodup_cons.1 hn
    rw [List.map_cons, List.sum_cons, ih hns.2, ← sumWhere_or]
    · refine sumWhere_congr fun x _ => ?_
      simp
    · intro x _ hx
      have hx : label x = n := by simpa using hx
      simpa [hx] using hns.1

theorem sumWhere_eq_countP (p : β → Bool) {f : β → Nat} {l : List β} (h : ∀ x ∈ l, f x ≤ 1) :
    sumWhere p f l = (l.filter fun x => 0 < f x).countP p := by
  induction l with
  | nil => rfl
  | cons x l ih =>
    have hx := h x List.mem_cons_self
    rw [sumWhere_cons, ih fun y hy => h y (List.mem_cons_of_mem _ hy)]
    by_cases hpos : 0 < f x
    · have hone : f x = 1 := by omega
      rw [List.filter_cons_of_pos (by simpa using hpos), List.countP_cons, hone, Nat.add_comm]
    · have hzero : f x = 0 := by omega
      rw [List.filter_cons_of_neg (by simpa using hpos), hzero, ite_self, Nat.zero_add]

/-- Terms that are bounded one by one and reach the sum of their bounds reach each bound. -/
theorem eq_of_sum_eq {f g : β → Nat} {l : List β} (hle : ∀ x ∈ l, f x ≤ g x)
    (hsum : (l.map g).sum ≤ (l.map f).sum) : ∀ x ∈ l, f x = g x := by
  have mono : ∀ m : List β, (∀ x ∈ m, f x ≤ g x) → (m.map f).sum ≤ (m.map g).sum := by
    intro m
    induction m with
    | nil => exact fun _ => Nat.le_refl _
    | cons x m ih =>
      intro hm
      have hx := hm x List.mem_cons_self
      have := ih fun y hy => hm y (List.mem_cons_of_mem _ hy)
      simp only [List.map_cons, List.sum_cons]
      omega
  induction l with
  | nil => exact fun x hx => by cases hx
  | cons x l ih =>
    have hx := hle x List.mem_cons_self
    have hl : ∀ y ∈ l, f y ≤ g y := fun y hy => hle y (List.mem_cons_of_mem _ hy)
    have hrest := mono l hl
    simp only [List.map_cons, List.sum_cons] at hsum
    intro y hy
    rcases List.mem_cons.1 hy with rfl | hy
    · omega
    · exact ih hl (by omega) y hy

end OrderBook

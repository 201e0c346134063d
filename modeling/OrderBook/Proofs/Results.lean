import OrderBook.Error

/-!
Taking apart computations that may fail.
-/

namespace OrderBook

variable {ε α β γ : Type}

theorem bind_eq_ok {x : Except ε α} {f : α → Except ε β} {b : β} :
    (x >>= f) = .ok b ↔ ∃ a, x = .ok a ∧ f a = .ok b := by
  cases x <;> simp [bind, Except.bind]

theorem bind_eq_error {x : Except ε α} {f : α → Except ε β} {e : ε} :
    (x >>= f) = .error e ↔ x = .error e ∨ ∃ a, x = .ok a ∧ f a = .error e := by
  cases x <;> simp [bind, Except.bind]

theorem pure_eq_ok {a b : α} : (pure a : Except ε α) = .ok b ↔ a = b := by
  simp [pure, Except.pure]

theorem mem_mapM {f : α → Except ε β} {l : List α} {bs : List β} (h : l.mapM f = .ok bs) {b : β}
    (hb : b ∈ bs) : ∃ a ∈ l, f a = .ok b := by
  induction l generalizing bs with
  | nil =>
    rw [List.mapM_nil] at h
    cases h
    cases hb
  | cons a l ih =>
    rw [List.mapM_cons] at h
    obtain ⟨c, hc, h⟩ := bind_eq_ok.1 h
    obtain ⟨cs, hcs, h⟩ := bind_eq_ok.1 h
    cases h
    cases hb with
    | head => exact ⟨a, List.mem_cons_self, hc⟩
    | tail _ hb =>
      obtain ⟨x, hx, hf⟩ := ih hcs hb
      exact ⟨x, List.mem_cons_of_mem _ hx, hf⟩

theorem length_mapM {f : α → Except ε β} {l : List α} {bs : List β} (h : l.mapM f = .ok bs) :
    bs.length = l.length := by
  induction l generalizing bs with
  | nil =>
    rw [List.mapM_nil] at h
    cases h
    rfl
  | cons a l ih =>
    rw [List.mapM_cons] at h
    obtain ⟨c, -, h⟩ := bind_eq_ok.1 h
    obtain ⟨cs, hcs, h⟩ := bind_eq_ok.1 h
    cases h
    rw [List.length_cons, List.length_cons, ih hcs]

theorem getElem?_mapM {f : α → Except ε β} {l : List α} {bs : List β} (h : l.mapM f = .ok bs) {i : Nat}
    {b : β} (hb : bs[i]? = some b) : ∃ a, l[i]? = some a ∧ f a = .ok b := by
  induction l generalizing bs i with
  | nil =>
    rw [List.mapM_nil] at h
    cases h
    cases hb
  | cons a l ih =>
    rw [List.mapM_cons] at h
    obtain ⟨c, hc, h⟩ := bind_eq_ok.1 h
    obtain ⟨cs, hcs, h⟩ := bind_eq_ok.1 h
    cases h
    cases i with
    | zero =>
      cases hb
      exact ⟨a, rfl, hc⟩
    | succ i => exact ih hcs hb

theorem forgive_eq_some {x : Result (Option α)} {a : α} (h : x.forgive = .ok (some a)) :
    x = .ok (some a) := by
  cases x with
  | ok b => exact h
  | error e =>
    simp only [Result.forgive] at h
    split at h
    · cases h
    · cases h

/-- What holds before a loop that does not fail, and is kept by every step, holds after it. -/
theorem foldlM_invariant {P : List α → β → Prop} {f : β → α → Except ε β}
    (step : ∀ {done a b c}, P done b → f b a = .ok c → P (done ++ [a]) c) :
    ∀ (l done : List α) {b c : β}, P done b → l.foldlM f b = .ok c → P (done ++ l) c := by
  intro l
  induction l with
  | nil =>
    intro done b c hb h
    obtain rfl : b = c := by simpa [List.foldlM_nil, pure, Except.pure] using h
    simpa using hb
  | cons a l ih =>
    intro done b c hb h
    rw [List.foldlM_cons, bind_eq_ok] at h
    obtain ⟨d, hd, h⟩ := h
    simpa using ih (done ++ [a]) (step hb hd) h

/-- A loop goes through exactly if each of its steps does, where that depends on the element alone as
long as the states keep a property. -/
theorem foldlM_isOk_iff {P : β → Prop} {Q : α → Prop} {f : β → α → Except ε β}
    (step : ∀ a b, P b → ((∃ c, f b a = .ok c) ↔ Q a))
    (keep : ∀ {a b c}, P b → f b a = .ok c → P c) (l : List α) {b : β} (hb : P b) :
    (∃ c, l.foldlM f b = .ok c) ↔ ∀ a ∈ l, Q a := by
  induction l generalizing b with
  | nil => exact ⟨fun _ => List.forall_mem_nil Q, fun _ => ⟨b, rfl⟩⟩
  | cons a l ih =>
    rw [List.foldlM_cons, List.forall_mem_cons, ← step a b hb]
    constructor
    · rintro ⟨c, h⟩
      obtain ⟨d, hd, h⟩ := bind_eq_ok.1 h
      exact ⟨⟨d, hd⟩, (ih (keep hb hd)).1 ⟨c, h⟩⟩
    · rintro ⟨⟨d, hd⟩, hrest⟩
      obtain ⟨c, h⟩ := (ih (keep hb hd)).2 hrest
      exact ⟨c, bind_eq_ok.2 ⟨d, hd, h⟩⟩

theorem foldlM_congr {f g : β → α → Except ε β} {l : List α} (h : ∀ a ∈ l, ∀ b, f b a = g b a) (b : β) :
    l.foldlM f b = l.foldlM g b := by
  induction l generalizing b with
  | nil => rfl
  | cons a l ih =>
    rw [List.foldlM_cons, List.foldlM_cons, h a List.mem_cons_self]
    exact congrArg _ (funext (ih fun x hx => h x (List.mem_cons_of_mem _ hx)))

/-! Which errors can come about -/

def FailsOnly (kind : ε → Prop) (x : Except ε α) : Prop := ∀ e, x = .error e → kind e

namespace FailsOnly

variable {kind : ε → Prop}

theorem ok (a : α) : FailsOnly kind (.ok a) := by
  intro e h
  cases h

theorem pure (a : α) : FailsOnly kind (Pure.pure a : Except ε α) := ok a

theorem error {e : ε} (h : kind e) : FailsOnly kind (.error e : Except ε α) := by
  intro e' he
  cases he
  exact h

theorem exists_ok {x : Except ε α} (h : FailsOnly kind x) (hn : ∀ e, kind e → x ≠ .error e) :
    ∃ a, x = .ok a := by
  cases x with
  | ok a => exact ⟨a, rfl⟩
  | error e => exact absurd rfl (hn e (h e rfl))

theorem imp {other : ε → Prop} {x : Except ε α} (h : FailsOnly kind x)
    (hk : ∀ e, kind e → other e) : FailsOnly other x :=
  fun e he => hk e (h e he)

theorem bind {x : Except ε α} {f : α → Except ε β} (hx : FailsOnly kind x)
    (hf : ∀ a, x = .ok a → FailsOnly kind (f a)) : FailsOnly kind (x >>= f) := by
  intro e he
  rcases bind_eq_error.1 he with h | ⟨a, ha, h⟩
  · exact hx e h
  · exact hf a ha e h

theorem foldlM {f : β → α → Except ε β} (hf : ∀ b a, FailsOnly kind (f b a)) (l : List α) (b : β) :
    FailsOnly kind (l.foldlM f b) := by
  induction l generalizing b with
  | nil => exact pure b
  | cons a l ih =>
    rw [List.foldlM_cons]
    exact bind (hf b a) fun c _ => ih c

theorem mapM {f : α → Except ε β} (l : List α) (hf : ∀ a ∈ l, FailsOnly kind (f a)) :
    FailsOnly kind (l.mapM f) := by
  induction l with
  | nil => exact pure []
  | cons a l ih =>
    rw [List.mapM_cons]
    refine bind (hf a List.mem_cons_self) fun b _ => ?_
    exact bind (ih fun x hx => hf x (List.mem_cons_of_mem _ hx)) fun bs _ => pure _

end FailsOnly

end OrderBook

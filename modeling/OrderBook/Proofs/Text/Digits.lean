import Mathlib.Data.List.Basic
import Mathlib.Data.List.TakeWhile
import OrderBook.Json.Number

/-!
Natural numbers written in decimal digits. The digits come from the number without its last digit and
then from that one, so what holds of numerals is shown by taking off the last digit.
-/

namespace OrderBook

namespace Text

theorem natural_of_lt {n : Nat} (h : n < 10) : natural n = [n.digitChar] :=
  Nat.toDigits_of_lt_base h

theorem natural_of_le {n : Nat} (h : 10 ≤ n) :
    natural n = natural (n / 10) ++ [(n % 10).digitChar] :=
  Nat.toDigits_of_base_le (by decide) h

theorem digit?_eq {k : Nat} (h : k < 10) : digit? k.digitChar = some k := by
  have hall : ∀ k : Fin 10, digit? (Nat.digitChar k) = some k.val := by decide
  exact hall ⟨k, h⟩

/-- What holds of numerals of one digit, and of a numeral with one more digit behind it, holds of the
numerals of all numbers. -/
theorem natural_induction {P : Nat → List Char → Prop} (one : ∀ n < 10, P n [n.digitChar])
    (more : ∀ n, 0 < n → ∀ d < 10, P n (natural n) → P (n * 10 + d) (natural n ++ [d.digitChar]))
    (n : Nat) : P n (natural n) := by
  induction n using Nat.strongRecOn with
  | ind n ih =>
    by_cases h : n < 10
    · rw [natural_of_lt h]
      exact one n h
    · have hle : 10 ≤ n := Nat.le_of_not_lt h
      have hpos : 0 < n / 10 := Nat.div_pos hle (by decide)
      have hmore := more (n / 10) hpos (n % 10) (Nat.mod_lt _ (by decide))
        (ih (n / 10) (Nat.div_lt_self (by omega) (by decide)))
      rw [natural_of_le hle]
      rwa [Nat.div_add_mod'] at hmore

theorem mem_natural {n : Nat} {c : Char} (h : c ∈ natural n) : ∃ k < 10, c = k.digitChar := by
  refine natural_induction (P := fun _ cs => c ∈ cs → ∃ k < 10, c = k.digitChar) ?_ ?_ n h
  · intro k hk hc
    exact ⟨k, hk, List.mem_singleton.1 hc⟩
  · intro n _ d hd ih hc
    rcases List.mem_append.1 hc with hc | hc
    · exact ih hc
    · exact ⟨d, hd, List.mem_singleton.1 hc⟩

theorem natural_ne_nil (n : Nat) : natural n ≠ [] := Nat.toDigits_ne_nil

theorem natural_of_head?_zero {n : Nat} (h : (natural n).head? = some '0') : n = 0 := by
  refine natural_induction (P := fun n cs => cs.head? = some '0' → n = 0) ?_ ?_ n h
  · intro k hk hhead
    have hall : ∀ k : Fin 10, [Nat.digitChar k].head? = some '0' → k.val = 0 := by decide
    exact hall ⟨k, hk⟩ hhead
  · intro n hn d _ ih hhead
    rw [List.head?_append_of_ne_nil _ (natural_ne_nil n)] at hhead
    exact absurd (ih hhead) (Nat.ne_of_gt hn)

end Text

namespace Json.Number

open Text

theorem isDigit_of_mem_natural {n : Nat} {c : Char} (h : c ∈ natural n) : isDigit c = true := by
  obtain ⟨k, hk, rfl⟩ := mem_natural h
  rw [isDigit, digit?_eq hk]
  rfl

theorem digitsValue_natural (n : Nat) : digitsValue (natural n) = n := by
  refine natural_induction (P := fun n cs => digitsValue cs = n) ?_ ?_ n
  · intro k hk
    simp [digitsValue, digit?_eq hk]
  · intro n _ d hd ih
    rw [digitsValue] at ih ⊢
    simp [ih, digit?_eq hd]

theorem readUnsigned?_natural (negative : Bool) (n : Nat) :
    readUnsigned? negative (natural n) = some (.integer negative n) := by
  have hall : ∀ c ∈ natural n, isDigit c = true := fun c => isDigit_of_mem_natural
  have hwhole : (natural n).takeWhile isDigit = natural n := List.takeWhile_eq_self_iff.2 hall
  have hrest : (natural n).dropWhile isDigit = [] := List.dropWhile_eq_nil_iff.2 hall
  have hproper : ((natural n).isEmpty ||
      ((natural n).head? == some '0' && (natural n).length != 1)) = false := by
    rw [List.isEmpty_eq_false_iff.2 (natural_ne_nil n), Bool.false_or]
    cases hhead : (natural n).head? == some '0' with
    | false => rfl
    | true =>
      obtain rfl := natural_of_head?_zero (beq_iff_eq.1 hhead)
      rfl
  rw [readUnsigned?]
  dsimp only
  rw [hwhole, hrest, hproper, digitsValue_natural]
  rfl

theorem read?_render_integer (negative : Bool) (n : Nat) :
    read? (Number.integer negative n).render = some (.integer negative n) := by
  cases negative with
  | true => exact readUnsigned?_natural true n
  | false =>
    have hrender : (Number.integer false n).render = natural n := rfl
    rw [hrender, read?]
    · exact readUnsigned?_natural false n
    · intro cs hcs
      have hsign := isDigit_of_mem_natural (n := n) (hcs ▸ List.mem_cons_self)
      cases hsign

end Json.Number

end OrderBook

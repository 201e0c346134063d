import Mathlib.Algebra.Ring.Int.Parity
import OrderBook.Proofs.Decimal.Value

/-!
Correct rounding. An exact value is rounded to the most fraction digits that leave room for it, at most
28 of them, and half to even. So what it is rounded to depends on its size alone: rounding keeps the
order of exact values, and it leaves a value that is a number as it is. Sums, differences and products
are rounded in this way.
-/

namespace OrderBook.Decimal

-- Powers are the ones that core defines.
attribute [local instance (high)] instPowNat

/-! Whole numbers -/

/-- The whole number nearest to `x`; where two are equally near, the even one. -/
structure IsNearest (x : ℚ) (z : ℤ) : Prop where
  near : |x - z| ≤ 1 / 2
  even : |x - z| = 1 / 2 → Even z

variable {x y : ℚ} {z w : ℤ} {t u : Nat}

theorem isNearest_intCast (z : ℤ) : IsNearest z z := by
  constructor <;> simp

theorem IsNearest.neg (h : IsNearest x z) : IsNearest (-x) (-z) := by
  have habs : |-x - ((-z : ℤ) : ℚ)| = |x - z| := by
    rw [← abs_neg]
    push_cast
    ring_nf
  constructor
  · rw [habs]
    exact h.near
  · rw [habs, even_neg]
    exact h.even

/-- Two values between the same two whole numbers are rounded apart only in their order: if they were
rounded against it, both would lie halfway, and both whole numbers would be even. -/
theorem IsNearest.mono (hx : IsNearest x z) (hy : IsNearest y w) (h : x ≤ y) : z ≤ w := by
  by_contra hlt
  have hstep : (w : ℚ) + 1 ≤ z := by
    have hlt : w + 1 ≤ z := by omega
    exact_mod_cast hlt
  obtain ⟨hxlow, -⟩ := abs_le.1 hx.near
  obtain ⟨-, hyhigh⟩ := abs_le.1 hy.near
  have hnext : (z : ℚ) = w + 1 := by linarith
  have hxhalf : x - z = -(1 / 2) := by linarith
  have hyhalf : y - w = 1 / 2 := by linarith
  have hz : Even z := hx.even (by rw [hxhalf]; norm_num)
  have hw : Even w := hy.even (by rw [hyhalf]; norm_num)
  have hnext : z = w + 1 := by exact_mod_cast hnext
  rw [hnext, Int.even_add_one] at hz
  exact hz hw

theorem isNearest_divRoundEven {n d : Nat} (hd : 0 < d) :
    IsNearest ((n : ℚ) / d) (divRoundEven n d : Nat) := by
  refine ⟨by simpa [abs_sub_comm] using abs_divRoundEven_sub (n := n) hd, fun htie => ?_⟩
  have hd' : (d : ℚ) ≠ 0 := by positivity
  have hn := Nat.div_add_mod' n d
  have hmod := Nat.mod_lt n hd
  have htie : 2 * n = 2 * (divRoundEven n d * d) + d ∨ 2 * n + d = 2 * (divRoundEven n d * d) := by
    cases eq_or_eq_neg_of_abs_eq htie with
    | inl h =>
      left
      field_simp at h
      push_cast at h
      have h : (2 : ℚ) * n = 2 * (divRoundEven n d * d) + d := by linarith
      exact_mod_cast h
    | inr h =>
      right
      field_simp at h
      push_cast at h
      have h : (2 : ℚ) * n + d = 2 * (divRoundEven n d * d) := by linarith
      exact_mod_cast h
  rw [Int.even_coe_nat, Nat.even_iff]
  simp only [divRoundEven] at htie ⊢
  generalize n / d = q at hn htie ⊢
  split
  · rename_i hup
    rw [if_pos hup] at htie
    have hnext : (q + 1) * d = q * d + d := Nat.succ_mul q d
    omega
  · rename_i hdown
    rw [if_neg hdown] at htie
    omega

/-! Fraction digits -/

/-- Rounded to `t` fraction digits, `x` has the digits `z`. There is room for them, and with one digit
more there would be none. -/
structure RoundsAt (x : ℚ) (t : Nat) (z : ℤ) : Prop where
  nearest : IsNearest (x * 10 ^ t) z
  lt_limit : |z| < mantissaLimit
  scale_le : t ≤ 28
  full : t = 28 ∨ ∃ w, IsNearest (x * 10 ^ (t + 1)) w ∧ (mantissaLimit : ℤ) ≤ |w|

/-- The number that an exact value is rounded to. -/
def Rounds (x : ℚ) (d : Decimal) : Prop := ∃ t z, RoundsAt x t z ∧ d.value = z / 10 ^ t

theorem RoundsAt.neg (h : RoundsAt x t z) : RoundsAt (-x) t (-z) := by
  refine ⟨by rw [neg_mul]; exact h.nearest.neg, by rw [abs_neg]; exact h.lt_limit, h.scale_le, ?_⟩
  refine h.full.imp_right fun ⟨w, hw, hlong⟩ => ⟨-w, ?_, by rwa [abs_neg]⟩
  rw [neg_mul]
  exact hw.neg

theorem Rounds.neg {d : Decimal} (h : Rounds x d) : Rounds (-x) d.neg := by
  obtain ⟨t, z, hat, hvalue⟩ := h
  refine ⟨t, -z, hat.neg, ?_⟩
  rw [value_neg, hvalue]
  push_cast
  ring

theorem IsNearest.long (hz : IsNearest (x * 10 ^ t) z) (hw : IsNearest (x * 10 ^ (t + 1)) w)
    (hlong : (mantissaLimit : ℤ) ≤ w) : (mantissaLimit : ℤ) ≤ 10 * z := by
  obtain ⟨-, hzhigh⟩ := abs_le.1 hz.near
  obtain ⟨hwlow, -⟩ := abs_le.1 hw.near
  rw [pow_succ, ← mul_assoc] at hwlow
  have hhalf : (2 * w : ℚ) ≤ 20 * z + 11 := by linarith
  have hhalf : 2 * w ≤ 20 * z + 11 := by exact_mod_cast hhalf
  simp only [mantissaLimit] at hlong ⊢
  omega

/-- Fewer digits are kept only of a value whose size is out of the range of more. -/
theorem RoundsAt.le_of_lt_scale (hx : RoundsAt x t z) (hy : RoundsAt y u w) (h : x ≤ y) (htu : t < u) :
    (z : ℚ) / 10 ^ t ≤ w / 10 ^ u := by
  have hscale := hy.scale_le
  obtain hfull | ⟨v, hv, hlong⟩ := hx.full
  · omega
  · obtain ⟨hwlow, hwhigh⟩ := abs_lt.1 hy.lt_limit
    have hpow : (10 : ℚ) ^ (t + 1) ≤ 10 ^ u := pow_le_pow_right₀ (by norm_num) htu
    have hstep : (z : ℚ) / 10 ^ t = 10 * z / 10 ^ (t + 1) := by
      rw [pow_succ]
      field_simp
    cases le_abs.1 hlong with
    | inl hlarge =>
      -- So does the larger value, and it has more digits all the same.
      obtain ⟨hvlow, -⟩ := abs_le.1 hv.near
      have hpositive : 0 ≤ x := by
        have hlarge' : (1 : ℚ) ≤ v := by
          have hone : (1 : ℤ) ≤ v := le_trans (by decide) hlarge
          exact_mod_cast hone
        have hscaled : 0 ≤ x * 10 ^ (t + 1) := by linarith
        exact nonneg_of_mul_nonneg_left hscaled (by positivity)
      have hle := hv.mono hy.nearest (mul_le_mul h hpow (by positivity) (le_trans hpositive h))
      omega
    | inr hsmall =>
      have hten : (mantissaLimit : ℤ) ≤ 10 * -z := by
        refine IsNearest.long (x := -x) (t := t) ?_ ?_ hsmall
        · rw [neg_mul]
          exact hx.nearest.neg
        · rw [neg_mul]
          exact hv.neg
      have hten : (10 * z : ℚ) ≤ -mantissaLimit := by
        have hten : 10 * z ≤ -(mantissaLimit : ℤ) := by omega
        exact_mod_cast hten
      have hw : (-mantissaLimit : ℚ) ≤ w := by exact_mod_cast hwlow.le
      have hlimit : (0 : ℚ) ≤ mantissaLimit := Nat.cast_nonneg _
      calc (z : ℚ) / 10 ^ t = 10 * z / 10 ^ (t + 1) := hstep
        _ ≤ -mantissaLimit / 10 ^ (t + 1) := div_le_div_of_nonneg_right hten (by positivity)
        _ = -(mantissaLimit / 10 ^ (t + 1)) := neg_div _ _
        _ ≤ -(mantissaLimit / 10 ^ u) := neg_le_neg (div_le_div_of_nonneg_left hlimit (by positivity) hpow)
        _ = -mantissaLimit / 10 ^ u := (neg_div _ _).symm
        _ ≤ w / 10 ^ u := div_le_div_of_nonneg_right hw (by positivity)

theorem Rounds.mono {d e : Decimal} (hd : Rounds x d) (he : Rounds y e) (h : x ≤ y) :
    d.value ≤ e.value := by
  obtain ⟨t, z, hx, hd⟩ := hd
  obtain ⟨u, w, hy, he⟩ := he
  rw [hd, he]
  rcases Nat.lt_trichotomy t u with hlt | rfl | hgt
  · exact hx.le_of_lt_scale hy h hlt
  · have hscaled : x * 10 ^ t ≤ y * 10 ^ t := mul_le_mul_of_nonneg_right h (by positivity)
    have hle : (z : ℚ) ≤ w := by exact_mod_cast hx.nearest.mono hy.nearest hscaled
    exact div_le_div_of_nonneg_right hle (by positivity)
  · have hle := hy.neg.le_of_lt_scale hx.neg (neg_le_neg h) hgt
    push_cast at hle
    rw [neg_div, neg_div] at hle
    exact neg_le_neg_iff.1 hle

theorem Rounds.value_unique {d e : Decimal} (hd : Rounds x d) (he : Rounds x e) : d.value = e.value :=
  le_antisymm (hd.mono he le_rfl) (he.mono hd le_rfl)

theorem exists_roundsAt (hz : |z| < mantissaLimit) (ht : t ≤ 28) :
    ∃ u w, RoundsAt ((z : ℚ) / 10 ^ t) u w ∧ (w : ℚ) / 10 ^ u = z / 10 ^ t := by
  obtain ⟨k, hk⟩ := Nat.exists_eq_add_of_le ht
  induction k generalizing t z with
  | zero =>
    refine ⟨t, z, ⟨?_, hz, ht, .inl hk.symm⟩, rfl⟩
    rw [div_mul_cancel₀ _ (by positivity)]
    exact isNearest_intCast z
  | succ k ih =>
    have hnext : (z : ℚ) / 10 ^ t = ((10 * z : ℤ) : ℚ) / 10 ^ (t + 1) := by
      rw [pow_succ]
      push_cast
      field_simp
    by_cases hroom : |10 * z| < mantissaLimit
    · rw [hnext]
      exact ih hroom (by omega) (by omega)
    · refine ⟨t, z, ⟨?_, hz, ht, .inr ⟨10 * z, ?_, Int.not_lt.1 hroom⟩⟩, rfl⟩
      · rw [div_mul_cancel₀ _ (by positivity)]
        exact isNearest_intCast z
      · rw [hnext, div_mul_cancel₀ _ (by positivity)]
        exact isNearest_intCast (10 * z)

theorem rounds_of_value_eq {d : Decimal} (h : d.value = x) : Rounds x d := by
  have hlimit : |d.coefficient| < mantissaLimit := by
    have hm : (d.mantissa : ℤ) < mantissaLimit := by exact_mod_cast d.mantissa_lt
    rw [coefficient]
    split
    · rwa [abs_neg, Nat.abs_cast]
    · rwa [Nat.abs_cast]
  obtain ⟨t, z, hat, hvalue⟩ := exists_roundsAt hlimit d.scale_le
  rw [← value_eq] at hat hvalue
  exact ⟨t, z, h ▸ hat, hvalue.symm⟩

theorem Rounds.le {c d : Decimal} (h : Rounds x d) (hc : c.value ≤ x) : c.value ≤ d.value :=
  (rounds_of_value_eq rfl).mono h hc

theorem Rounds.ge {c d : Decimal} (h : Rounds x d) (hc : x ≤ c.value) : d.value ≤ c.value :=
  h.mono (rounds_of_value_eq rfl) hc

theorem Rounds.nonneg {d : Decimal} (h : Rounds x d) (hx : 0 ≤ x) : 0 ≤ d.value :=
  value_zero ▸ h.le (value_zero ▸ hx)

theorem Rounds.nonpos {d : Decimal} (h : Rounds x d) (hx : x ≤ 0) : d.value ≤ 0 :=
  value_zero ▸ h.ge (value_zero ▸ hx)

theorem RoundsAt.long (h : RoundsAt x t z) (ht : t ≠ 28) : (mantissaLimit : ℤ) ≤ 10 * |z| := by
  obtain ⟨w, hw, hlong⟩ := h.full.resolve_left ht
  cases le_abs.1 hlong with
  | inl hlarge =>
    have hten := h.nearest.long hw hlarge
    have hsize := le_abs_self z
    omega
  | inr hsmall =>
    have hnearest := h.neg.nearest
    have hten := hnearest.long (w := -w) (by rw [neg_mul]; exact hw.neg) hsmall
    have hsize := neg_le_abs z
    omega

/-- Only digits behind the 28th are lost without need. -/
theorem Rounds.exact_or_long {d : Decimal} (h : Rounds x d) (hx : ∃ k : ℤ, x * 10 ^ 28 = k) :
    d.value = x ∨ ∃ (t : Nat) (z : ℤ), d.value = z / 10 ^ t ∧ t ≤ 28 ∧ |z| < mantissaLimit ∧
      (mantissaLimit : ℤ) ≤ 10 * |z| := by
  obtain ⟨t, z, hat, hvalue⟩ := h
  by_cases ht : t = 28
  · subst ht
    obtain ⟨k, hk⟩ := hx
    have hnearest := hat.nearest
    rw [hk] at hnearest
    have heq : z = k :=
      le_antisymm (hnearest.mono (isNearest_intCast k) le_rfl) ((isNearest_intCast k).mono hnearest le_rfl)
    left
    rw [hvalue, heq, ← hk, mul_div_cancel_right₀ _ (by positivity)]
  · exact .inr ⟨t, z, hvalue, hat.scale_le, hat.lt_limit, hat.long ht⟩

theorem exists_value_mul (d : Decimal) : ∃ k : ℤ, d.value * 10 ^ 28 = k := by
  refine ⟨d.coefficient * 10 ^ (28 - d.scale), ?_⟩
  have hsplit : (10 : ℚ) ^ 28 = 10 ^ (28 - d.scale) * 10 ^ d.scale := by
    rw [← pow_add, Nat.sub_add_cancel d.scale_le]
  rw [value_eq, hsplit]
  push_cast
  field_simp

/-! Results -/

theorem rounds_of_size {negative : Bool} {d : Decimal}
    (hnegative : d.negative = (negative && d.mantissa != 0)) (hat : RoundsAt x t z)
    (hsize : (d.mantissa : ℚ) / 10 ^ d.scale = z / 10 ^ t) : Rounds (signOf negative * x) d := by
  have hvalue := value_of_negative hnegative
  rw [hsize] at hvalue
  cases negative with
  | false =>
    rw [signOf, if_neg Bool.false_ne_true, one_mul] at hvalue ⊢
    exact ⟨t, z, hat, hvalue⟩
  | true =>
    rw [signOf, if_pos rfl, neg_one_mul] at hvalue ⊢
    refine ⟨t, -z, hat.neg, ?_⟩
    rw [hvalue]
    push_cast
    ring

theorem Fitted.rounds {negative : Bool} {v s : Nat} {d : Decimal} (f : Fitted negative v s d) :
    Rounds (signOf negative * ((v : ℚ) / 10 ^ s)) d := by
  have hnearest : ∀ t ≤ s, IsNearest ((v : ℚ) / 10 ^ s * 10 ^ t) (divRoundEven v (10 ^ (s - t)) : Nat) := by
    intro t ht
    have hscaled : (v : ℚ) / 10 ^ s * 10 ^ t = v / (10 ^ (s - t) : Nat) := by
      have hsplit : (10 : ℚ) ^ s = 10 ^ (s - t) * 10 ^ t := by rw [← pow_add, Nat.sub_add_cancel ht]
      push_cast
      rw [hsplit]
      field_simp
    rw [hscaled]
    exact isNearest_divRoundEven (ten_pow_pos _)
  have hat : (d.scale = 28 ∨ d.scale < s ∧ mantissaLimit ≤ divRoundEven v (10 ^ (s - (d.scale + 1)))) →
      RoundsAt ((v : ℚ) / 10 ^ s) d.scale d.mantissa := by
    intro hfull
    refine ⟨f.mantissa ▸ hnearest _ f.scale_le, ?_, d.scale_le, ?_⟩
    · rw [Nat.abs_cast]
      exact_mod_cast d.mantissa_lt
    · refine hfull.imp_right fun ⟨hlt, hlong⟩ => ⟨_, hnearest _ hlt, ?_⟩
      rw [Nat.abs_cast]
      exact_mod_cast hlong
  obtain hmin | hlong := f.full
  · by_cases hs : s ≤ 28
    · -- No digit is given up.
      have heq : s = d.scale := by omega
      have hm := f.mantissa
      rw [heq, Nat.sub_self, Nat.pow_zero, divRoundEven_one] at hm
      rw [heq, ← hm]
      exact rounds_of_value_eq (value_of_negative f.negative)
    · exact rounds_of_size f.negative (hat (.inl (by omega))) (by rw [Int.cast_natCast])
  · exact rounds_of_size f.negative (hat (.inr hlong)) (by rw [Int.cast_natCast])

theorem rounds_fit {negative : Bool} {v s : Nat} {d : Decimal} (h : fit negative v s = some d) :
    Rounds (signOf negative * ((v : ℚ) / 10 ^ s)) d :=
  (fitted_fit h).rounds

variable {a b c : Decimal}

theorem rounds_add? (h : a.add? b = some c) : Rounds (a.value + b.value) c := by
  obtain hexact | ⟨n, s, -, hsum, hfit⟩ := add?_cases h
  · exact rounds_of_value_eq hexact
  · have hrounds := rounds_fit hfit
    rwa [← mul_div_assoc, signOf_natAbs, hsum] at hrounds

theorem rounds_sub? (h : a.sub? b = some c) : Rounds (a.value - b.value) c := by
  have hrounds := rounds_add? h
  rwa [value_neg, ← sub_eq_add_neg] at hrounds

theorem roundsAt_of_vanishes (h : vanishes a b = true) : RoundsAt (a.value * b.value) 28 0 := by
  simp only [vanishes, Bool.and_eq_true, decide_eq_true_eq] at h
  obtain ⟨⟨hscale, ha⟩, hb⟩ := h
  have hsize : (a.mantissa * b.mantissa : ℚ) ≤ 2 ^ 64 := by
    have hle : a.mantissa * b.mantissa ≤ 2 ^ 32 * 2 ^ 32 := Nat.mul_le_mul ha.le hb.le
    have hpow : (2 : ℚ) ^ 64 = 2 ^ 32 * 2 ^ 32 := by norm_num
    rw [hpow]
    exact_mod_cast hle
  have hpow : (10 : ℚ) ^ 48 ≤ 10 ^ (a.scale + b.scale) := pow_le_pow_right₀ (by norm_num) hscale
  refine ⟨⟨?_, fun _ => Even.zero⟩, by decide, le_rfl, .inl rfl⟩
  have habs : |a.value * b.value * 10 ^ 28| =
      (a.mantissa * b.mantissa * 10 ^ 28 : ℚ) / 10 ^ (a.scale + b.scale) := by
    rw [abs_mul, abs_mul, abs_value, abs_value, pow_add,
      abs_of_nonneg (by positivity : (0 : ℚ) ≤ 10 ^ 28)]
    field_simp
  rw [Int.cast_zero, sub_zero, habs, div_le_iff₀ (by positivity)]
  linarith

theorem rounds_mul? (h : a.mul? b = some c) : Rounds (a.value * b.value) c := by
  obtain ⟨rfl, hzero | hvanishes⟩ | ⟨negative, v, hexact, hfit⟩ := mul?_cases h
  · exact rounds_of_value_eq (by rw [hzero, value_zero])
  · exact ⟨28, 0, roundsAt_of_vanishes hvanishes, by rw [value_zero, Int.cast_zero, zero_div]⟩
  · rw [← hexact]
    exact rounds_fit hfit

end OrderBook.Decimal

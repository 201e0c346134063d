import OrderBook.Decimal.Text
import OrderBook.Proofs.Decimal.Signed

/-!
The normal form of a number: no zero that could be taken off behind the point, and no sign on a zero.
Each value has one normal form, it is the one with the smallest scale, and taking off the zeros leads to
it.
-/

namespace OrderBook.Decimal

-- Powers are the ones that core defines.
attribute [local instance (high)] instPowNat

structure IsNormal (d : Decimal) : Prop where
  last : d.scale = 0 ∨ d.mantissa % 10 ≠ 0
  unsigned : d.mantissa = 0 → d.negative = false

/-! What is taken off -/

theorem dropTrailingZeros_mul (m s : Nat) :
    (dropTrailingZeros m s).1 * 10 ^ s = m * 10 ^ (dropTrailingZeros m s).2 := by
  induction s generalizing m with
  | zero => rfl
  | succ s ih =>
    rw [dropTrailingZeros]
    split
    · rename_i hzero
      have hm : m / 10 * 10 = m := Nat.div_mul_cancel (Nat.dvd_of_mod_eq_zero hzero)
      calc (dropTrailingZeros (m / 10) s).1 * 10 ^ (s + 1)
          = (dropTrailingZeros (m / 10) s).1 * 10 ^ s * 10 := by rw [Nat.pow_succ, Nat.mul_assoc]
        _ = m / 10 * 10 ^ (dropTrailingZeros (m / 10) s).2 * 10 := by rw [ih]
        _ = m / 10 * 10 * 10 ^ (dropTrailingZeros (m / 10) s).2 := Nat.mul_right_comm _ _ _
        _ = m * 10 ^ (dropTrailingZeros (m / 10) s).2 := by rw [hm]
    · rfl

theorem dropTrailingZeros_last (m s : Nat) :
    (dropTrailingZeros m s).2 = 0 ∨ (dropTrailingZeros m s).1 % 10 ≠ 0 := by
  induction s generalizing m with
  | zero => exact .inl rfl
  | succ s ih =>
    rw [dropTrailingZeros]
    split
    · exact ih (m / 10)
    · rename_i hlast
      exact .inr hlast

theorem dropTrailingZeros_ne_zero {m : Nat} (hm : m ≠ 0) (s : Nat) : (dropTrailingZeros m s).1 ≠ 0 := by
  intro hzero
  have hmul := dropTrailingZeros_mul m s
  rw [hzero, Nat.zero_mul] at hmul
  exact Nat.mul_ne_zero hm (Nat.ne_of_gt (ten_pow_pos _)) hmul.symm

theorem isNormal_normalize (d : Decimal) : d.normalize.IsNormal := by
  rw [normalize]
  split
  · exact ⟨.inl rfl, fun _ => rfl⟩
  · rename_i hzero
    have hm : d.mantissa ≠ 0 := by simpa [isZero] using hzero
    exact ⟨dropTrailingZeros_last _ _, fun h => absurd h (dropTrailingZeros_ne_zero hm _)⟩

theorem value_normalize (d : Decimal) : d.normalize.value = d.value := by
  rw [normalize]
  split
  · rename_i hzero
    rw [value_zero, value_of_isZero hzero]
  · have hmul := dropTrailingZeros_mul d.mantissa d.scale
    rw [value_eq_signOf, value_eq_signOf]
    refine congrArg (signOf d.negative * ·) ?_
    rw [div_eq_div_iff (by positivity) (by positivity)]
    exact_mod_cast hmul

/-! One normal form -/

theorem mantissa_mul_of_value {a b : Decimal} (h : a.value = b.value) :
    a.mantissa * 10 ^ b.scale = b.mantissa * 10 ^ a.scale := by
  have habs := congrArg abs h
  rw [abs_value, abs_value, div_eq_div_iff (by positivity) (by positivity)] at habs
  exact_mod_cast habs

/-- No number of the same value has a smaller scale. -/
theorem IsNormal.scale_le {a b : Decimal} (ha : a.IsNormal) (h : a.value = b.value) :
    a.scale ≤ b.scale := by
  refine Nat.not_lt.1 fun hlt => ?_
  obtain ⟨k, hk⟩ := Nat.exists_eq_add_of_lt hlt
  have hmul := mantissa_mul_of_value h
  have hpow : 10 ^ a.scale = 10 ^ k * 10 * 10 ^ b.scale := by
    rw [hk, Nat.pow_succ, Nat.pow_add, Nat.mul_comm (10 ^ b.scale), Nat.mul_right_comm]
  rw [hpow, ← Nat.mul_assoc, ← Nat.mul_assoc] at hmul
  have hm : a.mantissa = b.mantissa * 10 ^ k * 10 := Nat.eq_of_mul_eq_mul_right (ten_pow_pos _) hmul
  rcases ha.last with hscale | hlast
  · omega
  · exact hlast (hm ▸ Nat.mul_mod_left _ _)

theorem IsNormal.negative_iff {d : Decimal} (h : d.IsNormal) : d.negative = true ↔ d.value < 0 := by
  rw [← value_zero, ← lt_iff_value, lt_zero_iff, iff_self_and]
  intro hnegative hzero
  rw [h.unsigned hzero] at hnegative
  cases hnegative

theorem IsNormal.eq_of_value {a b : Decimal} (ha : a.IsNormal) (hb : b.IsNormal)
    (h : a.value = b.value) : a = b := by
  have hscale : a.scale = b.scale := Nat.le_antisymm (ha.scale_le h) (hb.scale_le h.symm)
  have hmantissa : a.mantissa = b.mantissa := by
    have hmul := mantissa_mul_of_value h
    rw [hscale] at hmul
    exact Nat.eq_of_mul_eq_mul_right (ten_pow_pos _) hmul
  have hnegative : a.negative = b.negative := by
    rw [Bool.eq_iff_iff, ha.negative_iff, hb.negative_iff, h]
  cases a
  cases b
  simp_all

theorem normalize_eq_iff {a b : Decimal} : a.normalize = b.normalize ↔ a.value = b.value := by
  constructor
  · intro h
    rw [← value_normalize a, h, value_normalize]
  · intro h
    refine (isNormal_normalize a).eq_of_value (isNormal_normalize b) ?_
    rw [value_normalize, value_normalize, h]

end OrderBook.Decimal

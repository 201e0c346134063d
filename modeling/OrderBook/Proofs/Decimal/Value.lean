import Mathlib.Algebra.Order.AbsoluteValue.Basic
import Mathlib.Algebra.Order.Field.Rat
import Mathlib.Data.Rat.Cast.Order
import Mathlib.Tactic.FieldSimp
import Mathlib.Tactic.Linarith
import Mathlib.Tactic.Positivity
import Mathlib.Tactic.Ring
import OrderBook.Proofs.Decimal.Rounding

/-!
The numbers that are denoted, and how far rounding takes a result from the exact one. Digits are given
up only when the mantissa uses nearly the whole range, so a sum, a difference and a product with a whole
number are off by at most one part in 10^28, and a difference has the sign of the exact one.
-/

namespace OrderBook.Decimal

-- Powers are the ones that core defines.
attribute [local instance (high)] instPowNat

/-! Values -/

theorem value_eq (d : Decimal) : d.value = (d.coefficient : ℚ) / 10 ^ d.scale := by
  rw [value, Rat.mkRat_eq_div]
  push_cast
  rfl

def signOf (negative : Bool) : ℚ := if negative then -1 else 1

theorem value_eq_signOf (d : Decimal) :
    d.value = signOf d.negative * ((d.mantissa : ℚ) / 10 ^ d.scale) := by
  rw [value_eq, coefficient, signOf]
  cases d.negative with
  | false => simp
  | true => simp [neg_div]

theorem value_of_negative {negative : Bool} {d : Decimal}
    (h : d.negative = (negative && d.mantissa != 0)) :
    d.value = signOf negative * ((d.mantissa : ℚ) / 10 ^ d.scale) := by
  rw [value_eq_signOf, h]
  by_cases hzero : d.mantissa = 0
  · simp [hzero]
  · rw [bne_iff_ne.2 hzero, Bool.and_true]

theorem signOf_natAbs (c : Int) : signOf (c < 0) * ((c.natAbs : Nat) : ℚ) = c := by
  rw [Nat.cast_natAbs, Int.cast_abs, signOf]
  by_cases hc : c < 0
  · have hc' : (c : ℚ) < 0 := by exact_mod_cast hc
    simp [hc, abs_of_neg hc']
  · have hc' : (0 : ℚ) ≤ c := by exact_mod_cast Int.not_lt.1 hc
    simp [hc, abs_of_nonneg hc']

theorem value_eq_aligned {d : Decimal} {s : Nat} (h : d.scale ≤ s) :
    ((d.coefficient * 10 ^ (s - d.scale) : Int) : ℚ) / 10 ^ s = d.value := by
  rw [value_eq]
  push_cast
  rw [div_eq_div_iff (by positivity) (by positivity), mul_assoc, ← pow_add, Nat.sub_add_cancel h]

theorem abs_value (d : Decimal) : |d.value| = (d.mantissa : ℚ) / 10 ^ d.scale := by
  have hpos : (0 : ℚ) ≤ (d.mantissa : ℚ) / 10 ^ d.scale := by positivity
  rw [value_eq_signOf, signOf]
  cases d.negative with
  | false => simpa using abs_of_nonneg hpos
  | true => simpa using abs_of_nonneg hpos

theorem le_iff_value {a b : Decimal} : a ≤ b ↔ a.value ≤ b.value := by
  rw [le_def, value_eq, value_eq, div_le_div_iff₀ (by positivity) (by positivity)]
  exact_mod_cast Iff.rfl

theorem lt_iff_value {a b : Decimal} : a < b ↔ a.value < b.value := by
  rw [← not_le, le_iff_value, lt_iff_not_ge]

theorem sameValue_iff_value {a b : Decimal} : a.SameValue b ↔ a.value = b.value := by
  rw [le_antisymm_iff, ← le_iff_value, ← le_iff_value, le_def, le_def, ← le_antisymm_iff]
  rfl

theorem value_zero : zero.value = 0 := by
  rw [value_eq, coefficient_zero]
  simp

theorem value_ofUInt64 (n : UInt64) : (ofUInt64 n).value = n.toNat := by
  simp [value_eq, coefficient, ofUInt64]

theorem value_ofUInt32 (n : UInt32) : (ofUInt32 n).value = n.toNat := by
  simp [value_eq, coefficient, ofUInt32]

theorem value_of_isZero {d : Decimal} (h : d.isZero = true) : d.value = 0 := by
  have hm : d.mantissa = 0 := by simpa [isZero] using h
  rw [value_eq_signOf, hm]
  simp

theorem isZero_of_value_eq {d : Decimal} (h : d.value = 0) : d.isZero = true := by
  have hsize := abs_value d
  rw [h, abs_zero, eq_comm, div_eq_zero_iff] at hsize
  have hm : (d.mantissa : ℚ) = 0 := hsize.resolve_right (by positivity)
  exact beq_iff_eq.2 (by exact_mod_cast hm)

theorem value_neg (d : Decimal) : d.neg.value = -d.value := by
  rw [neg]
  split
  · rename_i hzero
    rw [value_of_isZero hzero, neg_zero]
  · rw [value_eq_signOf, value_eq_signOf, signOf, signOf]
    cases d.negative with
    | false => simp
    | true => simp

/-! Rounded results -/

/-- `x` differs from `y` by at most one part in 10^28. -/
def Near (x y : ℚ) : Prop := |x - y| ≤ |x| / 10 ^ 28

variable {x y : ℚ}

theorem near_self (x : ℚ) : Near x x := by
  rw [Near, sub_self, abs_zero]
  positivity

theorem Near.neg (h : Near x y) : Near (-x) (-y) := by
  rw [Near, abs_neg, ← neg_sub', abs_neg]
  exact h

theorem Near.nonneg_iff (h : Near x y) : 0 ≤ x ↔ 0 ≤ y := by
  rw [Near] at h
  obtain ⟨hlow, hhigh⟩ := abs_le.1 h
  constructor
  · intro hx
    rw [abs_of_nonneg hx] at hlow hhigh
    linarith
  · intro hy
    by_contra hx
    have hx : x < 0 := lt_of_not_ge hx
    rw [abs_of_neg hx] at hlow hhigh
    linarith

theorem Near.div {z : ℚ} (h : Near x y) (hx : x ≠ 0) (hz : |z| ≤ |x|) :
    |z / x - z / y| ≤ 2 / 10 ^ 28 := by
  rw [Near] at h
  have hxpos : 0 < |x| := abs_pos.2 hx
  have hhalf : |x| ≤ 2 * |y| := by
    have hsize := abs_sub_abs_le_abs_sub x y
    linarith
  have hypos : 0 < |y| := by linarith
  have hy : y ≠ 0 := abs_pos.1 hypos
  have hshare : |z| / |x| ≤ 1 := (div_le_one hxpos).2 hz
  have herror : |x - y| / |y| ≤ 2 / 10 ^ 28 := by
    rw [div_le_div_iff₀ hypos (by positivity)]
    linarith
  have hsplit : z / x - z / y = z / x * ((y - x) / y) := by field_simp
  calc |z / x - z / y| = |z| / |x| * (|x - y| / |y|) := by
        rw [hsplit, abs_mul, abs_div, abs_div, abs_sub_comm y x]
    _ ≤ 1 * (2 / 10 ^ 28) := mul_le_mul hshare herror (by positivity) zero_le_one
    _ = 2 / 10 ^ 28 := one_mul _

theorem abs_divRoundEven_sub {n d : Nat} (hd : 0 < d) :
    |(divRoundEven n d : ℚ) - (n : ℚ) / d| ≤ 1 / 2 := by
  have hbounds : 2 * (divRoundEven n d * d) ≤ 2 * n + d ∧ 2 * n ≤ 2 * (divRoundEven n d * d) + d := by
    have hn := Nat.div_add_mod' n d
    have hmod := Nat.mod_lt n hd
    simp only [divRoundEven]
    generalize n / d = q at hn ⊢
    split
    · have hnext : (q + 1) * d = q * d + d := Nat.succ_mul q d
      omega
    · omega
  obtain ⟨hlow, hhigh⟩ := hbounds
  have hd' : (0 : ℚ) < d := by exact_mod_cast hd
  have hlow' : 2 * ((divRoundEven n d : ℚ) * d) ≤ 2 * n + d := by exact_mod_cast hlow
  have hhigh' : 2 * (n : ℚ) ≤ 2 * ((divRoundEven n d : ℚ) * d) + d := by exact_mod_cast hhigh
  have hn : (n : ℚ) / d * d = n := div_mul_cancel₀ _ (ne_of_gt hd')
  rw [abs_le]
  constructor <;> nlinarith

/-- The size of a result of at most 28 fraction digits that was made to fit. -/
theorem Fitted.near {negative : Bool} {v s : Nat} {d : Decimal} (f : Fitted negative v s d)
    (hs : s ≤ 28) : Near d.value (signOf negative * ((v : ℚ) / 10 ^ s)) := by
  have hsign := value_of_negative f.negative
  have habs : |signOf negative| = 1 := by cases negative <;> simp [signOf]
  rw [Near, abs_value, hsign, ← mul_sub, abs_mul, habs, one_mul]
  have hsplit : (10 : ℚ) ^ s = 10 ^ (s - d.scale) * 10 ^ d.scale := by
    rw [← pow_add, Nat.sub_add_cancel f.scale_le]
  have hscale : (0 : ℚ) < 10 ^ d.scale := by positivity
  have herror : (d.mantissa : ℚ) / 10 ^ d.scale - (v : ℚ) / 10 ^ s =
      ((d.mantissa : ℚ) - (v : ℚ) / 10 ^ (s - d.scale)) / 10 ^ d.scale := by
    rw [hsplit, sub_div, div_div]
  rw [herror, abs_div, abs_of_pos hscale, div_div, mul_comm, ← div_div]
  refine div_le_div_of_nonneg_right ?_ hscale.le
  cases f.full with
  | inl hmin =>
    have heq : s = d.scale := by omega
    have hm := f.mantissa
    rw [heq, Nat.sub_self, Nat.pow_zero, divRoundEven_one] at hm
    rw [heq, Nat.sub_self, pow_zero, div_one, hm, sub_self, abs_zero]
    positivity
  | inr hfull =>
    obtain ⟨-, hlong⟩ := f.long hfull.1 hfull.2
    have hhalf := abs_divRoundEven_sub (n := v) (ten_pow_pos (s - d.scale))
    rw [← f.mantissa] at hhalf
    push_cast at hhalf
    refine le_trans hhalf ?_
    have hlong' : (mantissaLimit : ℚ) ≤ 10 * d.mantissa := by exact_mod_cast hlong
    rw [mantissaLimit] at hlong'
    rw [div_le_div_iff₀ (by norm_num) (by norm_num)]
    norm_num at hlong' ⊢
    linarith

theorem near_fit {negative : Bool} {v s : Nat} {d : Decimal} (h : fit negative v s = some d)
    (hs : s ≤ 28) : Near d.value (signOf negative * ((v : ℚ) / 10 ^ s)) :=
  (fitted_fit h).near hs

theorem near_ofCoefficient? {c : Int} {s : Nat} {d : Decimal} (h : ofCoefficient? c s = some d)
    (hs : s ≤ 28) : Near d.value ((c : ℚ) / 10 ^ s) := by
  have hnear := near_fit h hs
  rwa [← mul_div_assoc, signOf_natAbs] at hnear

theorem add?_cases {a b c : Decimal} (h : a.add? b = some c) :
    c.value = a.value + b.value ∨ ∃ (n : Int) (s : Nat), s ≤ 28 ∧ (n : ℚ) / 10 ^ s = a.value + b.value ∧
      ofCoefficient? n s = some c := by
  rw [add?] at h
  split at h
  · rename_i hzero
    cases h
    exact .inl (by rw [value_of_isZero hzero, zero_add])
  · split at h
    · rename_i hzero
      cases h
      exact .inl (by rw [value_of_isZero hzero, add_zero])
    · refine .inr ⟨_, _, Nat.max_le.2 ⟨a.scale_le, b.scale_le⟩, ?_, h⟩
      rw [Int.cast_add, add_div, value_eq_aligned (Nat.le_max_left _ _),
        value_eq_aligned (Nat.le_max_right _ _)]

theorem near_add? {a b c : Decimal} (h : a.add? b = some c) : Near c.value (a.value + b.value) := by
  obtain hexact | ⟨n, s, hs, hsum, hfit⟩ := add?_cases h
  · rw [hexact]
    exact near_self _
  · rw [← hsum]
    exact near_ofCoefficient? hfit hs

theorem near_sub? {a b c : Decimal} (h : a.sub? b = some c) : Near c.value (a.value - b.value) := by
  have hnear := near_add? h
  rwa [value_neg, ← sub_eq_add_neg] at hnear

theorem zero_le_sub?_iff {a b c : Decimal} (h : a.sub? b = some c) : zero ≤ c ↔ b ≤ a := by
  rw [le_iff_value, le_iff_value, value_zero, (near_sub? h).nonneg_iff, sub_nonneg]

theorem signOf_bne (p q : Bool) : signOf (p != q) = signOf p * signOf q := by
  cases p <;> cases q <;> simp [signOf]

theorem mul?_cases {a b c : Decimal} (h : a.mul? b = some c) :
    c = zero ∧ (a.value * b.value = 0 ∨ vanishes a b = true) ∨
      ∃ (negative : Bool) (v : Nat), signOf negative * ((v : ℚ) / 10 ^ (a.scale + b.scale)) = a.value * b.value ∧
        fit negative v (a.scale + b.scale) = some c := by
  rw [mul?] at h
  split at h
  · rename_i hsmall
    cases h
    rw [Bool.or_eq_true, Bool.or_eq_true, or_assoc] at hsmall
    refine .inl ⟨rfl, ?_⟩
    obtain hzero | hzero | hvanishes := hsmall
    · exact .inl (by rw [value_of_isZero hzero, zero_mul])
    · exact .inl (by rw [value_of_isZero hzero, mul_zero])
    · exact .inr hvanishes
  · refine .inr ⟨_, _, ?_, h⟩
    rw [signOf_bne, value_eq_signOf a, value_eq_signOf b, pow_add]
    push_cast
    field_simp

theorem near_mul?_ofUInt64 {a c : Decimal} {n : UInt64} (h : a.mul? (ofUInt64 n) = some c) :
    Near c.value (a.value * n.toNat) := by
  have hscale : a.scale + (ofUInt64 n).scale ≤ 28 := a.scale_le
  rw [← value_ofUInt64]
  obtain ⟨rfl, hzero | hvanishes⟩ | ⟨negative, v, hexact, hfit⟩ := mul?_cases h
  · rw [hzero, value_zero]
    exact near_self 0
  · simp only [vanishes, Bool.and_eq_true, decide_eq_true_eq] at hvanishes
    omega
  · rw [← hexact]
    exact near_fit hfit hscale

end OrderBook.Decimal

import Mathlib.Algebra.Order.Field.Power
import OrderBook.Decimal.Division
import OrderBook.Proofs.Decimal.Value

/-!
Division of a number by one that is at least as large. While digits are produced, the quotient and the
remainder together stand for the exact ratio. For a ratio of at most one there is always room for the
next digits, so the division does not fail; it ends with the exact ratio or, with 28 fraction digits,
with a number that is off by at most half of the last one.
-/

namespace OrderBook.Decimal

-- Powers are the ones that core defines.
attribute [local instance (high)] instPowNat

namespace Quotient

/-- A quotient on the way: with its remainder it is `ratio * 10 ^ scale`. -/
structure Exact (ratio : ℚ) (b : Nat) (x : Quotient) : Prop where
  eq : (x.quotient : ℚ) + (x.remainder : ℚ) / b = ratio * 10 ^ x.scale
  remainder_lt : x.remainder < b
  scale_le : x.scale ≤ 28

/-- A quotient at which the division may end. -/
structure Settled (ratio : ℚ) (x : Quotient) : Prop where
  scale_nonneg : 0 ≤ x.scale
  scale_le : x.scale ≤ 28
  quotient_le : x.quotient ≤ 10 ^ x.scale.toNat
  near : |(x.quotient : ℚ) / 10 ^ x.scale.toNat - ratio| ≤ 1 / (2 * 10 ^ 28)

variable {ratio : ℚ} {b : Nat} {x : Quotient}

namespace Exact

theorem pos (e : Exact ratio b x) : (0 : ℚ) < b :=
  Nat.cast_pos.2 (Nat.lt_of_le_of_lt (Nat.zero_le _) e.remainder_lt)

theorem eq_toNat (e : Exact ratio b x) (hscale : 0 ≤ x.scale) :
    (x.quotient : ℚ) + (x.remainder : ℚ) / b = ratio * 10 ^ x.scale.toNat := by
  rw [e.eq, ← zpow_natCast, Int.toNat_of_nonneg hscale]

theorem of_neg (e : Exact ratio b x) (hpos : 0 < ratio) (hone : ratio ≤ 1) (hscale : x.scale < 0) :
    x.quotient = 0 ∧ x.remainder ≠ 0 := by
  have hpow : (10 : ℚ) ^ x.scale < 1 := zpow_lt_one_of_neg₀ (by norm_num) hscale
  have hpow' : (0 : ℚ) < 10 ^ x.scale := by positivity
  have hless : ratio * 10 ^ x.scale < 1 := by nlinarith
  have hmore : 0 < ratio * 10 ^ x.scale := mul_pos hpos hpow'
  have hrest : (0 : ℚ) ≤ (x.remainder : ℚ) / b := by positivity
  have heq := e.eq
  have hzero : x.quotient = 0 := by
    have hlt : (x.quotient : ℚ) < 1 := by linarith
    exact Nat.lt_one_iff.1 (by exact_mod_cast hlt)
  refine ⟨hzero, fun hr => ?_⟩
  rw [hzero, hr, Nat.cast_zero, zero_div, zero_add] at heq
  linarith

theorem quotient_le (e : Exact ratio b x) (hone : ratio ≤ 1) (hscale : 0 ≤ x.scale) :
    x.quotient ≤ 10 ^ x.scale.toNat := by
  have hpow : (0 : ℚ) < 10 ^ x.scale.toNat := by positivity
  have hrest : (0 : ℚ) ≤ (x.remainder : ℚ) / b := by positivity
  have heq := e.eq_toNat hscale
  have hle : (x.quotient : ℚ) ≤ 10 ^ x.scale.toNat := by nlinarith
  exact_mod_cast hle

theorem quotient_lt (e : Exact ratio b x) (hone : ratio ≤ 1) (hscale : 0 ≤ x.scale)
    (hr : x.remainder ≠ 0) : x.quotient < 10 ^ x.scale.toNat := by
  have hpow : (0 : ℚ) < 10 ^ x.scale.toNat := by positivity
  have hrest : (0 : ℚ) < (x.remainder : ℚ) / b :=
    div_pos (Nat.cast_pos.2 (Nat.pos_of_ne_zero hr)) e.pos
  have heq := e.eq_toNat hscale
  have hlt : (x.quotient : ℚ) < 10 ^ x.scale.toNat := by nlinarith
  exact_mod_cast hlt

theorem extend {p : Nat} (e : Exact ratio b x) (hscale : x.scale + p ≤ 28) :
    Exact ratio b ⟨x.quotient * 10 ^ p + x.remainder * 10 ^ p / b, x.remainder * 10 ^ p % b,
      x.scale + p, x.inexact⟩ := by
  have hb := e.pos
  refine ⟨?_, Nat.mod_lt _ (Nat.cast_pos.1 hb), hscale⟩
  have hdivision : ((x.remainder * 10 ^ p / b : Nat) : ℚ) * b + ((x.remainder * 10 ^ p % b : Nat) : ℚ) =
      x.remainder * 10 ^ p := by
    exact_mod_cast Nat.div_add_mod' (x.remainder * 10 ^ p) b
  have hrest : ((x.remainder * 10 ^ p / b : Nat) : ℚ) + ((x.remainder * 10 ^ p % b : Nat) : ℚ) / b =
      (x.remainder : ℚ) / b * 10 ^ p := by
    rw [div_mul_eq_mul_div, ← hdivision]
    field_simp
  show ((x.quotient * 10 ^ p + x.remainder * 10 ^ p / b : Nat) : ℚ) +
    ((x.remainder * 10 ^ p % b : Nat) : ℚ) / b = ratio * 10 ^ (x.scale + (p : Int))
  rw [zpow_add₀ (by norm_num), zpow_natCast, ← mul_assoc, ← e.eq, add_mul, ← hrest]
  push_cast
  ring

theorem settled (e : Exact ratio b x) (hone : ratio ≤ 1) (hscale : 0 ≤ x.scale)
    (hr : x.remainder = 0) : Settled ratio x := by
  refine ⟨hscale, e.scale_le, e.quotient_le hone hscale, ?_⟩
  have heq := e.eq_toNat hscale
  rw [hr, Nat.cast_zero, zero_div, add_zero] at heq
  rw [heq, mul_div_cancel_right₀ _ (by positivity), sub_self, abs_zero]
  positivity

end Exact

theorem tenTo_lt_limit {s : Int} (h : s ≤ 28) : 10 ^ s.toNat < mantissaLimit := by
  have hpow : 10 ^ s.toNat ≤ 10 ^ 28 := Nat.pow_le_pow_right (by decide) (by omega)
  exact Nat.lt_of_le_of_lt hpow (by decide)

theorem settled_round (e : Exact ratio b x) (hone : ratio ≤ 1) (hscale : x.scale = 28)
    (hr : x.remainder ≠ 0) : ∃ y, x.round b = some y ∧ Settled ratio y := by
  have hnonneg : 0 ≤ x.scale := by omega
  have hlt := e.quotient_lt hone hnonneg hr
  have hlimit : 10 ^ x.scale.toNat < mantissaLimit := tenTo_lt_limit e.scale_le
  have heq := e.eq_toNat hnonneg
  have hb := e.pos
  have htoNat : x.scale.toNat = 28 := by omega
  rw [htoNat] at heq hlt hlimit
  have hrest : (x.remainder : ℚ) / b * b = x.remainder := div_mul_cancel₀ _ (ne_of_gt hb)
  have hnear : ∀ q : ℚ, |q - ratio * 10 ^ 28| ≤ 1 / 2 → |q / 10 ^ 28 - ratio| ≤ 1 / (2 * 10 ^ 28) := by
    intro q hq
    have hscaled : q / 10 ^ 28 - ratio = (q - ratio * 10 ^ 28) / 10 ^ 28 := by
      rw [sub_div, mul_div_cancel_right₀ _ (by positivity)]
    rw [hscaled, abs_div, abs_of_pos (by positivity : (0 : ℚ) < 10 ^ 28), ← div_div]
    exact div_le_div_of_nonneg_right hq (by positivity)
  simp only [round]
  split
  · rename_i hup
    have hhalf : (b : ℚ) ≤ 2 * x.remainder := by
      have hup : b ≤ 2 * x.remainder := by omega
      exact_mod_cast hup
    have hless : (x.remainder : ℚ) ≤ b := by exact_mod_cast Nat.le_of_lt e.remainder_lt
    rw [if_neg (by omega)]
    refine ⟨_, rfl, hnonneg, e.scale_le, by show x.quotient + 1 ≤ 10 ^ x.scale.toNat; rw [htoNat]; exact hlt,
      ?_⟩
    show |((x.quotient + 1 : Nat) : ℚ) / 10 ^ x.scale.toNat - ratio| ≤ _
    rw [htoNat]
    apply hnear
    rw [← heq, abs_le]
    push_cast
    constructor <;> nlinarith
  · rename_i hdown
    have hhalf : 2 * (x.remainder : ℚ) ≤ b := by
      have hdown : 2 * x.remainder ≤ b := by omega
      exact_mod_cast hdown
    refine ⟨_, rfl, hnonneg, e.scale_le, by rw [htoNat]; exact Nat.le_of_lt hlt, ?_⟩
    rw [htoNat]
    apply hnear
    have hpos : (0 : ℚ) ≤ x.remainder := Nat.cast_nonneg _
    rw [← heq, abs_le]
    constructor <;> nlinarith

theorem unfinished_extend {p : Nat} (e : Exact ratio b x)
    (hwhole : x.quotient * 10 ^ p < mantissaLimit)
    (hnext : x.quotient * 10 ^ p + x.remainder * 10 ^ p / b < mantissaLimit)
    (hscale : x.scale + p ≤ 28) :
    ∃ y, x.extend b p = some (.unfinished y) ∧ Exact ratio b y ∧ y.scale = x.scale + p := by
  refine ⟨_, ?_, e.extend hscale, rfl⟩
  rw [Quotient.extend]
  dsimp only
  rw [if_neg (Nat.not_le.2 hwhole), if_pos hnext]

theorem blockLength_spec (q : Nat) (s : Int) (n : Nat) : blockLength q s n = 0 ∨
    q * 10 ^ blockLength q s n < mantissaLimit ∧ s + blockLength q s n ≤ 28 := by
  induction n with
  | zero => exact .inl rfl
  | succ n ih =>
    rw [blockLength]
    split
    · rename_i h
      exact .inr h
    · exact ih

theorem blockLength_pos {q : Nat} {s : Int} (hq : q * 10 < mantissaLimit) (hs : s < 28) (n : Nat) :
    0 < blockLength q s (n + 1) := by
  induction n with
  | zero =>
    rw [blockLength, if_pos ⟨by rwa [Nat.zero_add, Nat.pow_one], by omega⟩]
    exact Nat.one_pos
  | succ n ih =>
    rw [blockLength]
    split
    · exact Nat.succ_pos _
    · exact ih

/-- What a round of the division of a ratio of at most one leads to. -/
inductive Leads (ratio : ℚ) (b : Nat) (x : Quotient) : Round → Prop
  | finished {y : Quotient} (h : Settled ratio y) : Leads ratio b x (.finished y)
  | unfinished {y : Quotient} (h : Exact ratio b y) (hscale : x.scale < y.scale) :
    Leads ratio b x (.unfinished y)

theorem leads_advance (e : Exact ratio b x) (hpos : 0 < ratio) (hone : ratio ≤ 1) :
    ∃ r, x.advance b = some r ∧ Leads ratio b x r := by
  have e' : Exact ratio b { x with inexact := true } := ⟨e.eq, e.remainder_lt, e.scale_le⟩
  rw [advance]
  dsimp only
  by_cases hsign : x.scale < 0
  · -- No digit is there yet, so all nine of a block fit.
    obtain ⟨hzero, hr⟩ := e.of_neg hpos hone hsign
    have hblock : blockLength x.quotient x.scale 9 = 9 := by
      rw [blockLength, if_pos ⟨by rw [hzero, Nat.zero_mul]; decide, by omega⟩]
    have hdigits : x.remainder * 10 ^ 9 / b < 10 ^ 9 := by
      rw [Nat.div_lt_iff_lt_mul (Nat.cast_pos.1 e.pos), Nat.mul_comm]
      exact Nat.mul_lt_mul_of_pos_left e.remainder_lt (by decide)
    have hlimit : 10 ^ 9 < mantissaLimit := by decide
    obtain ⟨y, hy, hexact, hscale⟩ := unfinished_extend (p := 9) e'
      (by rw [hzero, Nat.zero_mul]; decide)
      (by rw [hzero, Nat.zero_mul, Nat.zero_add]; exact Nat.lt_trans hdigits hlimit)
      (by show x.scale + 9 ≤ 28; omega)
    refine ⟨_, ?_, .unfinished hexact (by rw [hscale]; show x.scale < x.scale + 9; omega)⟩
    rw [if_neg hr, if_neg (by omega : x.scale ≠ 28), hblock, if_neg (by omega), if_neg (by omega), hy]
  · have hscale : 0 ≤ x.scale := Int.not_lt.1 hsign
    by_cases hr : x.remainder = 0
    · exact ⟨_, by rw [if_pos hr, if_pos hscale], .finished (e.settled hone hscale hr)⟩
    · by_cases hfull : x.scale = 28
      · obtain ⟨y, hy, hsettled⟩ := settled_round e' hone hfull hr
        refine ⟨_, ?_, .finished hsettled⟩
        rw [if_neg hr, if_pos hfull, if_neg (by omega), if_pos rfl, hy]
        rfl
      · have hroom : x.quotient * 10 < mantissaLimit := by
          have hlt := e.quotient_lt hone hscale hr
          have hpow : 10 ^ (x.scale + 1).toNat < mantissaLimit :=
            tenTo_lt_limit (by have := e.scale_le; omega)
          rw [show (x.scale + 1).toNat = x.scale.toNat + 1 by omega, Nat.pow_succ] at hpow
          exact Nat.lt_trans (Nat.mul_lt_mul_of_pos_right hlt (by decide)) hpow
        have hblock : 0 < blockLength x.quotient x.scale 9 :=
          blockLength_pos hroom (lt_of_le_of_ne e.scale_le hfull) 8
        obtain hnone | ⟨hwhole, hend⟩ := blockLength_spec x.quotient x.scale 9
        · omega
        · generalize blockLength x.quotient x.scale 9 = p at hblock hwhole hend
          have hnext := (e'.extend hend).quotient_le hone (by show 0 ≤ x.scale + (p : Int); omega)
          obtain ⟨y, hy, hexact, hyscale⟩ := unfinished_extend e' hwhole
            (Nat.lt_of_le_of_lt hnext (tenTo_lt_limit hend)) hend
          refine ⟨_, ?_, .unfinished hexact (by rw [hyscale]; show x.scale < x.scale + p; omega)⟩
          rw [if_neg hr, if_neg hfull, if_neg (by omega), if_neg (by omega), hy]

theorem settled_divideFrom (rounds : Nat) (e : Exact ratio b x) (hpos : 0 < ratio) (hone : ratio ≤ 1)
    (hrounds : 28 - x.scale < rounds) : ∃ y, divideFrom b rounds x = some y ∧ Settled ratio y := by
  induction rounds generalizing x with
  | zero =>
    have hscale := e.scale_le
    omega
  | succ rounds ih =>
    obtain ⟨r, hr, hleads⟩ := leads_advance e hpos hone
    rw [divideFrom, hr]
    cases hleads with
    | finished h => exact ⟨_, rfl, h⟩
    | unfinished h hscale => exact ih h (by omega)

end Quotient

/-! Trailing zeros -/

theorem stripZeros_value (twos digits : Nat) (x : Nat × Nat) :
    ((stripZeros twos digits x).1 : ℚ) / 10 ^ (stripZeros twos digits x).2 = (x.1 : ℚ) / 10 ^ x.2 := by
  rw [stripZeros]
  split
  · rename_i h
    obtain ⟨-, hdigits, hzeros⟩ := h
    have hmantissa : (x.1 : ℚ) = ((x.1 / 10 ^ digits : Nat) : ℚ) * 10 ^ digits := by
      exact_mod_cast (Nat.div_mul_cancel (Nat.dvd_of_mod_eq_zero hzeros)).symm
    have hscale : (10 : ℚ) ^ x.2 = 10 ^ (x.2 - digits) * 10 ^ digits := by
      rw [← pow_add, Nat.sub_add_cancel hdigits]
    rw [hmantissa, hscale, mul_div_mul_right _ _ (by positivity)]
  · rfl

theorem stripZeros_le (twos digits : Nat) (x : Nat × Nat) :
    (stripZeros twos digits x).1 ≤ x.1 ∧ (stripZeros twos digits x).2 ≤ x.2 := by
  rw [stripZeros]
  split
  · exact ⟨Nat.div_le_self _ _, Nat.sub_le _ _⟩
  · exact ⟨Nat.le_refl _, Nat.le_refl _⟩

theorem stripBlocks_value (x : Nat × Nat) :
    ((stripBlocks x).1 : ℚ) / 10 ^ (stripBlocks x).2 = (x.1 : ℚ) / 10 ^ x.2 := by
  simp only [stripBlocks, stripZeros_value]

theorem stripBlocks_le (x : Nat × Nat) : (stripBlocks x).1 ≤ x.1 ∧ (stripBlocks x).2 ≤ x.2 := by
  have hstep : ∀ twos digits (y : Nat × Nat), y.1 ≤ x.1 ∧ y.2 ≤ x.2 →
      (stripZeros twos digits y).1 ≤ x.1 ∧ (stripZeros twos digits y).2 ≤ x.2 := by
    intro twos digits y hy
    have hstrip := stripZeros_le twos digits y
    exact ⟨Nat.le_trans hstrip.1 hy.1, Nat.le_trans hstrip.2 hy.2⟩
  simp only [stripBlocks]
  exact hstep _ _ _ (hstep _ _ _ (hstep _ _ _ (hstep _ _ _ (hstep _ _ _
    (hstep _ _ _ ⟨Nat.le_refl _, Nat.le_refl _⟩)))))

/-! The ratio -/

/-- A division starts with the whole digits, at the difference of the two scales. -/
theorem exact_start (a : Decimal) {b : Decimal} (hb : b.isZero = false) :
    Quotient.Exact ((a.mantissa : ℚ) / 10 ^ a.scale / ((b.mantissa : ℚ) / 10 ^ b.scale)) b.mantissa
      ⟨a.mantissa / b.mantissa, a.mantissa % b.mantissa, (a.scale : Int) - b.scale, false⟩ := by
  have hpos : 0 < b.mantissa := Nat.pos_of_ne_zero (by simpa [isZero] using hb)
  refine ⟨?_, Nat.mod_lt _ hpos, ?_⟩
  · have hdivision : ((a.mantissa / b.mantissa : Nat) : ℚ) * b.mantissa +
        ((a.mantissa % b.mantissa : Nat) : ℚ) = a.mantissa := by
      exact_mod_cast Nat.div_add_mod' a.mantissa b.mantissa
    have hpos' : (b.mantissa : ℚ) ≠ 0 := by positivity
    show ((a.mantissa / b.mantissa : Nat) : ℚ) + ((a.mantissa % b.mantissa : Nat) : ℚ) / b.mantissa =
      (a.mantissa : ℚ) / 10 ^ a.scale / ((b.mantissa : ℚ) / 10 ^ b.scale) * 10 ^ ((a.scale : Int) - b.scale)
    rw [zpow_sub₀ (by norm_num), zpow_natCast, zpow_natCast]
    field_simp
    linarith
  · have := a.scale_le
    show (a.scale : Int) - b.scale ≤ 28
    omega

theorem div?_of_settled {a b : Decimal} {x : Quotient} {ratio : ℚ} (ha : a.isZero = false)
    (hb : b.isZero = false) (hsign : a.negative = b.negative)
    (hx : divideFrom b.mantissa 57
      ⟨a.mantissa / b.mantissa, a.mantissa % b.mantissa, (a.scale : Int) - b.scale, false⟩ = some x)
    (hsettled : x.Settled ratio) :
    ∃ q, a.div? b = some q ∧ q.negative = false ∧ q.mantissa ≤ 10 ^ q.scale ∧
      |q.value - ratio| ≤ 1 / (2 * 10 ^ 28) := by
  have hresult : ∀ m s, m ≤ x.quotient → s ≤ x.scale.toNat →
      (m : ℚ) / 10 ^ s = (x.quotient : ℚ) / 10 ^ x.scale.toNat →
      ∃ q, mk? (a.negative != b.negative) m s = some q ∧ q.negative = false ∧
        q.mantissa ≤ 10 ^ q.scale ∧ |q.value - ratio| ≤ 1 / (2 * 10 ^ 28) := by
    intro m s hm hs hvalue
    have hscale := hsettled.scale_le
    have hnear := hsettled.near
    rw [← hvalue] at hnear
    have hone : (m : ℚ) / 10 ^ s ≤ 1 := by
      rw [hvalue, div_le_one (by positivity)]
      exact_mod_cast hsettled.quotient_le
    rw [div_le_one (by positivity)] at hone
    have hlimit := Quotient.tenTo_lt_limit hsettled.scale_le
    have hm : m < mantissaLimit := by
      have := hsettled.quotient_le
      omega
    rw [mk?, dif_pos ⟨hm, by omega⟩, hsign, bne_self_eq_false]
    refine ⟨_, rfl, rfl, by exact_mod_cast hone, ?_⟩
    simpa [value_eq, coefficient] using hnear
  rw [div?, if_neg (by rw [hb]; decide), if_neg (by rw [ha]; decide)]
  simp only [hx, Option.bind_eq_bind, Option.bind_some]
  split
  · obtain ⟨hm, hs⟩ := stripBlocks_le (x.quotient, x.scale.toNat)
    exact hresult _ _ hm hs (stripBlocks_value _)
  · exact hresult _ _ (Nat.le_refl _) (Nat.le_refl _) rfl

theorem value_div_value (a b : Decimal) : a.value / b.value = signOf (a.negative != b.negative) *
    ((a.mantissa : ℚ) / 10 ^ a.scale / ((b.mantissa : ℚ) / 10 ^ b.scale)) := by
  rw [value_eq_signOf a, value_eq_signOf b, signOf_bne, mul_div_mul_comm]
  cases a.negative <;> cases b.negative <;> simp [signOf]

/-- The ratio of a number to one of its sign that is at least as large is found, and it is off by at most
half of the last of 28 fraction digits. -/
theorem div?_ratio {a b : Decimal} (hb : b.isZero = false)
    (hle : a.mantissa * 10 ^ b.scale ≤ b.mantissa * 10 ^ a.scale)
    (hsign : a.isZero = false → a.negative = b.negative) :
    ∃ q, a.div? b = some q ∧ q.negative = false ∧ q.mantissa ≤ 10 ^ q.scale ∧
      |q.value - a.value / b.value| ≤ 1 / (2 * 10 ^ 28) := by
  cases ha : a.isZero with
  | true =>
    refine ⟨zero, ?_, rfl, by decide, ?_⟩
    · rw [div?, if_neg (by rw [hb]; decide), if_pos ha]
    · rw [value_zero, value_of_isZero ha, zero_div, sub_self, abs_zero]
      positivity
  | false =>
    have hsign := hsign ha
    have hapos : (0 : ℚ) < a.mantissa :=
      Nat.cast_pos.2 (Nat.pos_of_ne_zero (by simpa [isZero] using ha))
    have hbpos' : 0 < b.mantissa := Nat.pos_of_ne_zero (by simpa [isZero] using hb)
    have hbpos : (0 : ℚ) < b.mantissa := Nat.cast_pos.2 hbpos'
    have hratio : a.value / b.value =
        ((a.mantissa : ℚ) / 10 ^ a.scale) / ((b.mantissa : ℚ) / 10 ^ b.scale) := by
      rw [value_div_value, hsign, bne_self_eq_false, signOf, if_neg Bool.false_ne_true, one_mul]
    rw [hratio]
    generalize hr : ((a.mantissa : ℚ) / 10 ^ a.scale) / ((b.mantissa : ℚ) / 10 ^ b.scale) = ratio
    have hpos : 0 < ratio := by
      rw [← hr]
      positivity
    have hone : ratio ≤ 1 := by
      rw [← hr, div_le_one (by positivity), div_le_div_iff₀ (by positivity) (by positivity)]
      exact_mod_cast hle
    have hstart := exact_start a hb
    rw [hr] at hstart
    obtain ⟨x, hx, hsettled⟩ := Quotient.settled_divideFrom 57 hstart hpos hone (by
      have := b.scale_le
      show 28 - ((a.scale : Int) - b.scale) < 57
      omega)
    exact div?_of_settled ha hb hsign hx hsettled

theorem div?_le_one {a b q : Decimal} (h : a.div? b = some q)
    (hle : a.mantissa * 10 ^ b.scale ≤ b.mantissa * 10 ^ a.scale)
    (hsign : a.isZero = false → a.negative = b.negative) :
    q.negative = false ∧ q.mantissa ≤ 10 ^ q.scale := by
  cases hb : b.isZero with
  | true =>
    rw [div?, if_pos hb] at h
    cases h
  | false =>
    obtain ⟨q', hq', hn, hone, -⟩ := div?_ratio hb hle hsign
    rw [h] at hq'
    cases hq'
    exact ⟨hn, hone⟩

end OrderBook.Decimal

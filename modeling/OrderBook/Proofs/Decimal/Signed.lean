import OrderBook.Decimal.Integral
import OrderBook.Proofs.Decimal.Ratio

/-!
Numbers of one sign and of opposite signs. The difference of two numbers of opposite signs is at least
as large as either, and moving along a span of whole numbers by a share of it stays in the span,
whatever is rounded on the way.
-/

namespace OrderBook.Decimal

-- Powers are the ones that core defines.
attribute [local instance (high)] instPowNat

/-! Signs -/

theorem zero_le_iff {d : Decimal} : zero ≤ d ↔ d.negative = false ∨ d.mantissa = 0 := by
  have hpow : (10 : Int) ^ zero.scale = 1 := rfl
  rw [le_def, coefficient_zero, hpow, coefficient]
  cases d.negative with
  | false => simp
  | true => simp

theorem lt_zero_iff {d : Decimal} : d < zero ↔ d.negative = true ∧ d.mantissa ≠ 0 := by
  rw [← not_le, zero_le_iff]
  cases d.negative <;> simp

/-- One of two numbers is negative and the other is not. -/
def Opposite (a b : Decimal) : Prop := zero ≤ a ∧ b < zero ∨ a < zero ∧ zero ≤ b

theorem Opposite.value_ne {a b : Decimal} (h : Opposite a b) : a.value ≠ b.value := by
  rw [Opposite, le_iff_value, le_iff_value, lt_iff_value, lt_iff_value, value_zero] at h
  intro heq
  rw [heq] at h
  obtain ⟨hle, hlt⟩ | ⟨hlt, hle⟩ := h
  · exact absurd hlt (not_lt_of_ge hle)
  · exact absurd hlt (not_lt_of_ge hle)

theorem isZero_iff {d : Decimal} : d.isZero = true ↔ d.mantissa = 0 := by
  simp [isZero]

theorem coefficient_eq (d : Decimal) :
    d.coefficient = if d.negative then -(d.mantissa : Int) else d.mantissa := rfl

theorem add_same_sign {negative : Bool} {x y : Nat} :
    ((if negative then -(x : Int) else x) + if negative then -(y : Int) else y) =
      if negative then -((x + y : Nat) : Int) else (x + y : Nat) := by
  cases negative with
  | false => simp
  | true => simp only [if_true]; omega

theorem coefficient_mul_pow (d : Decimal) (n : Nat) :
    d.coefficient * 10 ^ n =
      if d.negative then -((d.mantissa * 10 ^ n : Nat) : Int) else (d.mantissa * 10 ^ n : Nat) := by
  rw [coefficient_eq]
  cases d.negative with
  | false => simp
  | true =>
    simp only [if_true]
    rw [Int.neg_mul]
    simp

theorem add?_same_sign {a b c : Decimal} (ha : a.isZero = false) (hb : b.isZero = false)
    (hsign : a.negative = b.negative) (h : a.add? b = some c) :
    Fitted a.negative (a.mantissa * 10 ^ (max a.scale b.scale - a.scale) +
      b.mantissa * 10 ^ (max a.scale b.scale - b.scale)) (max a.scale b.scale) c := by
  have hpos : 0 < a.mantissa * 10 ^ (max a.scale b.scale - a.scale) := by
    refine Nat.mul_pos (Nat.pos_of_ne_zero ?_) (ten_pow_pos _)
    simpa [isZero] using ha
  simp only [add?, ha, hb, ofCoefficient?, coefficient_mul_pow, ← hsign, add_same_sign] at h
  generalize hsum : a.mantissa * 10 ^ (max a.scale b.scale - a.scale) +
    b.mantissa * 10 ^ (max a.scale b.scale - b.scale) = sum at h ⊢
  have hsum : 0 < sum := by omega
  cases hn : a.negative with
  | false =>
    have hdecide : decide ((sum : Int) < 0) = false := by
      rw [decide_eq_false_iff_not]
      omega
    simp only [hn, Bool.false_eq_true, if_false, hdecide, Int.natAbs_natCast] at h
    exact fitted_fit h
  | true =>
    have hdecide : decide (-(sum : Int) < 0) = true := by
      rw [decide_eq_true_eq]
      omega
    simp only [hn, if_true, hdecide, Int.natAbs_neg, Int.natAbs_natCast] at h
    exact fitted_fit h

/-- The difference of two numbers of opposite signs is at least as large as the first of them, and of
its sign. -/
theorem sub?_opposite {a b c : Decimal} (hopposite : Opposite a b) (h : a.sub? b = some c) :
    a.mantissa * 10 ^ c.scale ≤ c.mantissa * 10 ^ a.scale ∧
      (a.isZero = false → a.negative = c.negative) := by
  simp only [sub?] at h
  cases ha : a.isZero with
  | true =>
    rw [isZero_iff.1 ha]
    simp
  | false =>
    have ha' : a.mantissa ≠ 0 := by simpa [isZero] using ha
    cases hb : b.neg.isZero with
    | true =>
      simp only [add?, ha, hb] at h
      cases h
      exact ⟨Nat.le_refl _, fun _ => rfl⟩
    | false =>
      have hb' : b.isZero = false := by rw [← isZero_neg, hb]
      have hsign : a.negative = b.neg.negative := by
        have hneg : b.neg.negative = !b.negative := by simp [neg, hb']
        have hbm : b.mantissa ≠ 0 := by simpa [isZero] using hb'
        rw [hneg]
        rcases hopposite with ⟨hle, hlt⟩ | ⟨hlt, hle⟩
        · have hle := (zero_le_iff.1 hle).resolve_right ha'
          rw [hle, (lt_zero_iff.1 hlt).1]
          rfl
        · have hle := (zero_le_iff.1 hle).resolve_right hbm
          rw [hle, (lt_zero_iff.1 hlt).1]
          rfl
      have fitted := add?_same_sign ha hb hsign h
      have hle : a.mantissa * 10 ^ c.scale ≤ c.mantissa * 10 ^ a.scale := by
        apply fitted.le
        rw [← ten_pow_sub_mul (Nat.le_max_left a.scale b.neg.scale), ← Nat.mul_assoc]
        exact Nat.mul_le_mul_right _ (Nat.le_add_right _ _)
      refine ⟨hle, fun _ => ?_⟩
      have hc : c.mantissa ≠ 0 := by
        intro hzero
        have hpos := Nat.mul_pos (Nat.pos_of_ne_zero ha') (ten_pow_pos c.scale)
        rw [hzero, Nat.zero_mul] at hle
        omega
      rw [fitted.negative]
      simp [hc]

theorem isZero_sub?_opposite {a b c : Decimal} (hopposite : Opposite a b) (h : a.sub? b = some c) :
    c.isZero = false := by
  rw [Bool.eq_false_iff]
  intro hzero
  have hnear := near_sub? h
  rw [value_of_isZero hzero, Near, abs_zero, zero_div, zero_sub, abs_neg] at hnear
  have heq : a.value - b.value = 0 := abs_eq_zero.1 (le_antisymm hnear (abs_nonneg _))
  exact hopposite.value_ne (sub_eq_zero.1 heq)

theorem exists_div?_opposite {a b c : Decimal} (hopposite : Opposite a b) (h : a.sub? b = some c) :
    ∃ q, a.div? c = some q ∧ q.negative = false ∧ q.mantissa ≤ 10 ^ q.scale ∧
      |q.value - a.value / (a.value - b.value)| ≤ 3 / 10 ^ 28 := by
  obtain ⟨hle, hsign⟩ := sub?_opposite hopposite h
  have hne := isZero_sub?_opposite hopposite h
  obtain ⟨q, hq, hpositive, hone, hrounded⟩ := div?_ratio hne hle hsign
  have hsize : |a.value| ≤ |c.value| := by
    rw [abs_value, abs_value, div_le_div_iff₀ (by positivity) (by positivity)]
    exact_mod_cast hle
  have hvalue : c.value ≠ 0 := by
    rw [← abs_pos, abs_value]
    have hpos : 0 < c.mantissa := Nat.pos_of_ne_zero (by simpa [isZero] using hne)
    positivity
  have hexact := (near_sub? h).div hvalue hsize
  refine ⟨q, hq, hpositive, hone, ?_⟩
  calc |q.value - a.value / (a.value - b.value)|
      ≤ |q.value - a.value / c.value| + |a.value / c.value - a.value / (a.value - b.value)| :=
        abs_sub_le _ _ _
    _ ≤ 1 / (2 * 10 ^ 28) + 2 / 10 ^ 28 := add_le_add hrounded hexact
    _ ≤ 3 / 10 ^ 28 := by norm_num

/-! Moving along a span -/

theorem mul?_share {r d : Decimal} {n : UInt64} (hn : r.negative = false)
    (hle : r.mantissa ≤ 10 ^ r.scale) (h : r.mul? (ofUInt64 n) = some d) :
    d.negative = false ∧ d.mantissa ≤ n.toNat * 10 ^ d.scale := by
  simp only [mul?] at h
  split at h
  · cases h
    exact ⟨rfl, Nat.zero_le _⟩
  · have fitted := fitted_fit h
    have hge : d.mantissa * 10 ^ (ofUInt64 n).scale ≤ (ofUInt64 n).mantissa * 10 ^ d.scale := by
      apply fitted.ge
      show r.mantissa * n.toNat * 10 ^ 0 ≤ n.toNat * 10 ^ (r.scale + 0)
      rw [Nat.pow_zero, Nat.mul_one, Nat.add_zero, Nat.mul_comm]
      exact Nat.mul_le_mul_left _ hle
    refine ⟨?_, ?_⟩
    · rw [fitted.negative, hn]
      rfl
    · rwa [show 10 ^ (ofUInt64 n).scale = 1 from rfl, Nat.mul_one] at hge

theorem exists_mul?_share {r : Decimal} (n : UInt64) (hle : r.mantissa ≤ 10 ^ r.scale) :
    ∃ d, r.mul? (ofUInt64 n) = some d := by
  rw [mul?]
  split
  · exact ⟨zero, rfl⟩
  · refine exists_fit (ofUInt64 n).mantissa_lt ?_
    show r.mantissa * n.toNat ≤ n.toNat * 10 ^ (r.scale + 0)
    rw [Nat.add_zero, Nat.mul_comm]
    exact Nat.mul_le_mul_left _ hle

/-- A number that is neither negative nor out of a span of whole numbers. -/
structure Between (d : Decimal) (low high : UInt64) : Prop where
  negative : d.negative = false
  low_le : low.toNat * 10 ^ d.scale ≤ d.mantissa
  le_high : d.mantissa ≤ high.toNat * 10 ^ d.scale

theorem between_ofUInt64 {n low high : UInt64} (hlow : low ≤ n) (hhigh : n ≤ high) :
    (ofUInt64 n).Between low high := by
  refine ⟨rfl, ?_, ?_⟩
  · show low.toNat * 1 ≤ n.toNat
    rw [Nat.mul_one]
    exact UInt64.le_iff_toNat_le.1 hlow
  · show n.toNat ≤ high.toNat * 1
    rw [Nat.mul_one]
    exact UInt64.le_iff_toNat_le.1 hhigh

theorem exists_add?_between {low high : UInt64} {d : Decimal} (hspan : low ≤ high)
    (hn : d.negative = false) (hle : d.mantissa ≤ (high - low).toNat * 10 ^ d.scale) :
    ∃ t, (ofUInt64 low).add? d = some t := by
  have hle' : low.toNat ≤ high.toNat := UInt64.le_iff_toNat_le.1 hspan
  rw [UInt64.toNat_sub_of_le _ _ hspan] at hle
  rw [add?]
  split
  · exact ⟨d, rfl⟩
  · split
    · exact ⟨_, rfl⟩
    · have hscale : Max.max (ofUInt64 low).scale d.scale = d.scale := Nat.max_eq_right (Nat.zero_le _)
      have hsum : (ofUInt64 low).coefficient * 10 ^ (d.scale - (ofUInt64 low).scale) +
          d.coefficient * 10 ^ (d.scale - d.scale) =
            ((low.toNat * 10 ^ d.scale + d.mantissa : Nat) : Int) := by
        rw [coefficient_mul_pow, coefficient_mul_pow, hn, Nat.sub_self, Nat.pow_zero, Nat.mul_one]
        rfl
      dsimp only
      rw [hscale, hsum, ofCoefficient?, Int.natAbs_natCast]
      refine exists_fit (ofUInt64 high).mantissa_lt ?_
      have hsplit : high.toNat * 10 ^ d.scale =
          low.toNat * 10 ^ d.scale + (high.toNat - low.toNat) * 10 ^ d.scale := by
        rw [← Nat.add_mul, Nat.add_sub_cancel' hle']
      show _ ≤ high.toNat * 10 ^ d.scale
      omega

theorem add?_between {low high : UInt64} {d t : Decimal} (hspan : low ≤ high)
    (hn : d.negative = false) (hle : d.mantissa ≤ (high - low).toNat * 10 ^ d.scale)
    (h : (ofUInt64 low).add? d = some t) : t.Between low high := by
  have hle' : low.toNat ≤ high.toNat := UInt64.le_iff_toNat_le.1 hspan
  rw [UInt64.toNat_sub_of_le _ _ hspan] at hle
  cases hlow : (ofUInt64 low).isZero with
  | true =>
    have hzero : low.toNat = 0 := isZero_iff.1 hlow
    simp only [add?, hlow] at h
    cases h
    refine ⟨hn, ?_, ?_⟩
    · rw [hzero]
      omega
    · rw [hzero] at hle
      exact hle
  | false =>
    cases hd : d.isZero with
    | true =>
      simp only [add?, hlow, hd] at h
      cases h
      exact between_ofUInt64 (UInt64.le_refl _) hspan
    | false =>
      have hscale : max (ofUInt64 low).scale d.scale = d.scale := Nat.max_eq_right (Nat.zero_le _)
      have fitted := add?_same_sign hlow hd (by rw [hn]; rfl) h
      rw [hscale, Nat.sub_self, Nat.pow_zero, Nat.mul_one] at fitted
      refine ⟨?_, ?_, ?_⟩
      · rw [fitted.negative]
        rfl
      · have := @Fitted.le _ _ _ (ofUInt64 low) _ fitted ?_
        · simpa [ofUInt64] using this
        · show low.toNat * 10 ^ d.scale ≤ (low.toNat * 10 ^ d.scale + d.mantissa) * 1
          omega
      · have := @Fitted.ge _ _ _ (ofUInt64 high) _ fitted ?_
        · simpa [ofUInt64] using this
        · show (low.toNat * 10 ^ d.scale + d.mantissa) * 1 ≤ high.toNat * 10 ^ d.scale
          have hsum : high.toNat * 10 ^ d.scale =
              low.toNat * 10 ^ d.scale + (high.toNat - low.toNat) * 10 ^ d.scale := by
            rw [← Nat.add_mul, Nat.add_sub_cancel' hle']
          omega

namespace Between

variable {d e : Decimal} {low high n : UInt64}

theorem value_eq_mantissa (h : d.Between low high) : d.value = (d.mantissa : ℚ) / 10 ^ d.scale := by
  rw [value_eq_signOf, signOf, h.negative, if_neg (by decide), one_mul]

theorem value (h : d.Between low high) : (low.toNat : ℚ) ≤ d.value ∧ d.value ≤ high.toNat := by
  rw [h.value_eq_mantissa, le_div_iff₀ (by positivity), div_le_iff₀ (by positivity)]
  exact ⟨by exact_mod_cast h.low_le, by exact_mod_cast h.le_high⟩

theorem wholePart (h : d.Between low high) : low.toNat ≤ d.wholePart ∧ d.wholePart ≤ high.toNat := by
  refine ⟨(Nat.le_div_iff_mul_le (ten_pow_pos _)).2 h.low_le, Nat.div_le_of_le_mul ?_⟩
  rw [Nat.mul_comm]
  exact h.le_high

theorem value_lt (h : d.Between low high) : d.value < d.wholePart + 1 := by
  rw [h.value_eq_mantissa, div_lt_iff₀ (by positivity)]
  have hlt := Nat.lt_div_mul_add (a := d.mantissa) (ten_pow_pos d.scale)
  rw [← Nat.succ_mul] at hlt
  exact_mod_cast hlt

theorem wholePart_floor (h : d.Between low high) : d.floor.wholePart = d.wholePart := by
  simp only [Decimal.floor, h.negative]
  split
  · rfl
  · exact Nat.div_one _

theorem wholePart_ceil (h : d.Between low high) :
    d.value ≤ d.ceil.wholePart ∧ (d.ceil.wholePart : ℚ) < d.value + 1 := by
  have hdiv : d.wholePart * 10 ^ d.scale + d.mantissa % 10 ^ d.scale = d.mantissa :=
    Nat.div_add_mod' d.mantissa (10 ^ d.scale)
  have hmod := Nat.mod_lt d.mantissa (ten_pow_pos d.scale)
  have hbounds : d.mantissa ≤ d.ceil.wholePart * 10 ^ d.scale ∧
      d.ceil.wholePart * 10 ^ d.scale < d.mantissa + 10 ^ d.scale := by
    simp only [Decimal.ceil, h.negative, Bool.false_or]
    split
    · rename_i hscale
      rw [hscale, Nat.pow_zero] at hdiv hmod ⊢
      omega
    · split
      · rename_i hwhole
        have hwhole : d.mantissa % 10 ^ d.scale = 0 := by simpa [isWhole] using hwhole
        rw [show d.trunc.wholePart = d.wholePart from Nat.div_one _]
        omega
      · rename_i hwhole
        have hwhole : d.mantissa % 10 ^ d.scale ≠ 0 := by simpa [isWhole] using hwhole
        show d.mantissa ≤ (d.wholePart + 1) / 1 * 10 ^ d.scale ∧
          (d.wholePart + 1) / 1 * 10 ^ d.scale < d.mantissa + 10 ^ d.scale
        rw [Nat.div_one, Nat.add_mul, Nat.one_mul]
        omega
  rw [h.value_eq_mantissa, div_le_iff₀ (by positivity), ← sub_lt_iff_lt_add, lt_div_iff₀ (by positivity)]
  refine ⟨by exact_mod_cast hbounds.1, ?_⟩
  have hhigh : (d.ceil.wholePart : ℚ) * 10 ^ d.scale < d.mantissa + 10 ^ d.scale := by
    exact_mod_cast hbounds.2
  linarith

theorem trunc (h : d.Between low high) : d.trunc.Between low high := by
  obtain ⟨hlow, hhigh⟩ := h.wholePart
  refine ⟨?_, ?_, ?_⟩
  · show (d.negative && d.wholePart != 0) = false
    rw [h.negative]
    rfl
  · show low.toNat * 1 ≤ d.wholePart
    omega
  · show d.wholePart ≤ high.toNat * 1
    omega

theorem floor (h : d.Between low high) : d.floor.Between low high := by
  simp only [Decimal.floor, h.negative]
  split
  · exact h
  · exact h.trunc

theorem ceil (h : d.Between low high) : d.ceil.Between low high := by
  simp only [Decimal.ceil, h.negative, Bool.false_or]
  split
  · exact h
  · split
    · exact h.trunc
    · rename_i hwhole
      have hlt : d.wholePart < high.toNat := by
        refine Nat.lt_of_le_of_ne h.wholePart.2 fun heq => hwhole ?_
        have hdiv := Nat.div_add_mod d.mantissa (10 ^ d.scale)
        have hle := h.le_high
        rw [← heq, Nat.mul_comm] at hle
        simp only [Decimal.wholePart] at hle
        simp only [isWhole, beq_iff_eq]
        omega
      have hlow := h.wholePart.1
      refine ⟨rfl, ?_, ?_⟩
      · show low.toNat * 1 ≤ d.wholePart + 1
        omega
      · show d.wholePart + 1 ≤ high.toNat * 1
        omega

theorem max (h : d.Between low high) (k : e.Between low high) :
    (Max.max d e).Between low high := by
  show Between (if d < e then e else d) low high
  split
  · exact k
  · exact h

theorem toUInt64? (h : d.Between low high) (hn : d.toUInt64? = some n) : low ≤ n ∧ n ≤ high := by
  obtain ⟨hlow, hhigh⟩ := h.wholePart
  simp only [Decimal.toUInt64?, h.negative, Bool.false_eq_true, if_false] at hn
  split at hn
  · rename_i hlt
    cases hn
    have htoNat : (UInt64.ofNat d.wholePart).toNat = d.wholePart := by
      simpa using Nat.mod_eq_of_lt hlt
    rw [UInt64.le_iff_toNat_le, UInt64.le_iff_toNat_le, htoNat]
    exact ⟨hlow, hhigh⟩
  · cases hn

theorem exists_toUInt64? (h : d.Between low high) :
    ∃ n, d.toUInt64? = some n ∧ n.toNat = d.wholePart := by
  have hlt : d.wholePart < UInt64.size := Nat.lt_of_le_of_lt h.wholePart.2 high.toNat_lt
  refine ⟨UInt64.ofNat d.wholePart, ?_, by simpa using Nat.mod_eq_of_lt hlt⟩
  rw [Decimal.toUInt64?, h.negative, if_neg (by decide), if_pos hlt]

end Between

end OrderBook.Decimal

import OrderBook.Proofs.Decimal.Quotient
import OrderBook.Proofs.Decimal.Signed

/-!
Where results exist. A difference of two numbers that are not negative is a number, and so is any number
divided by a whole one: the whole digits are there from the start, each round adds a digit behind the
point, and a digit that is rounded up into one too many is a digit behind the point as well.
-/

namespace OrderBook.Decimal

-- Powers are the ones that core defines.
attribute [local instance (high)] instPowNat

/-! Differences -/

theorem exists_sub?_nonneg {a b : Decimal} (ha : zero ≤ a) (hb : zero ≤ b) :
    ∃ d, a.sub? b = some d := by
  rw [sub?, add?]
  split
  · exact ⟨_, rfl⟩
  · rename_i hazero
    split
    · exact ⟨_, rfl⟩
    · rename_i hbzero
      rw [isZero_neg] at hbzero
      have hsign : a.negative = false := (zero_le_iff.1 ha).resolve_right (isZero_iff.not.1 hazero)
      have hsign' : b.negative = false := (zero_le_iff.1 hb).resolve_right (isZero_iff.not.1 hbzero)
      have hneg : b.neg = { b with negative := true } := by
        rw [neg, if_neg hbzero, hsign']
        rfl
      rw [hneg]
      generalize max a.scale ({ b with negative := true } : Decimal).scale = s
      dsimp only
      rw [coefficient_mul_pow, coefficient_mul_pow, hsign, ofCoefficient?]
      have hleft : a.mantissa * 10 ^ (s - a.scale) ≤ a.mantissa * 10 ^ s :=
        Nat.mul_le_mul_left _ (Nat.pow_le_pow_right (by decide) (Nat.sub_le _ _))
      have hright : b.mantissa * 10 ^ (s - b.scale) ≤ b.mantissa * 10 ^ s :=
        Nat.mul_le_mul_left _ (Nat.pow_le_pow_right (by decide) (Nat.sub_le _ _))
      have hlarger := Nat.mul_le_mul_right (10 ^ s) (Nat.le_max_left a.mantissa b.mantissa)
      have hlarger' := Nat.mul_le_mul_right (10 ^ s) (Nat.le_max_right a.mantissa b.mantissa)
      refine exists_fit (Nat.max_lt.2 ⟨a.mantissa_lt, b.mantissa_lt⟩) ?_
      simp only [Bool.false_eq_true, if_false, if_true]
      omega

/-! Quotients -/

namespace Quotient

variable {b p : Nat} {x : Quotient}

structure Fits (x : Quotient) : Prop where
  scale_le : x.scale ≤ 28
  lt_limit : x.quotient < mantissaLimit

/-- A quotient on the way that has all its whole digits, with room for them even if they are rounded
up. -/
structure Whole (b : Nat) (x : Quotient) : Prop extends Fits x where
  scale_nonneg : 0 ≤ x.scale
  remainder_lt : x.remainder < b
  room : x.scale = 0 → x.remainder ≠ 0 → x.quotient + 1 < mantissaLimit

theorem exists_round (w : Whole b x) (hr : x.remainder ≠ 0) : ∃ y, x.round b = some y ∧ Fits y := by
  have hscale := w.scale_le
  have hlimit := w.lt_limit
  rw [round]
  split
  · split
    · rename_i hlast
      have hpoint : ¬ x.scale < 1 := by
        intro hwhole
        have hnonneg := w.scale_nonneg
        have hroom := w.room (by omega) hr
        omega
      rw [if_neg hpoint]
      exact ⟨_, rfl, by show x.scale - 1 ≤ 28; omega,
        (by decide : (mantissaLimit + 4) / 10 < mantissaLimit)⟩
    · exact ⟨_, rfl, hscale, by show x.quotient + 1 < mantissaLimit; omega⟩
  · exact ⟨_, rfl, hscale, hlimit⟩

/-- Where a round leaves a division that does not fail. -/
inductive Continues (b : Nat) (x : Quotient) : Round → Prop
  | finished {y : Quotient} (h : Fits y) : Continues b x (.finished y)
  | unfinished {y : Quotient} (h : Whole b y) (hscale : x.scale < y.scale) :
    Continues b x (.unfinished y)

theorem exists_extend (w : Whole b x) (hpos : 0 < p) (hp : p ≤ 9) (hscale : x.scale + p ≤ 28)
    (hwhole : x.quotient * 10 ^ p < mantissaLimit) :
    ∃ next, x.extend b p = some next ∧ Continues b x next := by
  have hnonneg := w.scale_nonneg
  have hdropped := dropDigit_lt_limit (x.remainder * 10 ^ p % b != 0) hwhole w.remainder_lt hp
  have hrest : x.remainder * 10 ^ p % b < b :=
    Nat.mod_lt _ (Nat.lt_of_le_of_lt (Nat.zero_le _) w.remainder_lt)
  simp only [extend]
  rw [if_neg (Nat.not_le.2 hwhole)]
  split
  · rename_i hroom
    refine ⟨_, rfl, .unfinished ⟨⟨hscale, hroom⟩, ?_, hrest, ?_⟩ ?_⟩
    · show 0 ≤ x.scale + p
      omega
    · intro hpoint
      change x.scale + p = 0 at hpoint
      omega
    · show x.scale < x.scale + p
      omega
  · rw [if_neg (by omega)]
    exact ⟨_, rfl, .finished ⟨by show x.scale + p - 1 ≤ 28; omega, hdropped⟩⟩

theorem exists_advance (w : Whole b x) : ∃ next, x.advance b = some next ∧ Continues b x next := by
  rw [advance]
  by_cases hr : x.remainder = 0
  · rw [if_pos hr, if_pos w.scale_nonneg]
    exact ⟨_, rfl, .finished w.toFits⟩
  · rw [if_neg hr]
    have w' : Whole b { x with inexact := true } :=
      ⟨⟨w.scale_le, w.lt_limit⟩, w.scale_nonneg, w.remainder_lt, w.room⟩
    dsimp only
    have hpoint := w.scale_nonneg
    generalize hlength : (if x.scale = 28 then 0 else blockLength x.quotient x.scale 9) = p
    obtain ⟨hp, hend, -⟩ := block_spec w.scale_le hlength
    rw [if_neg (by omega)]
    by_cases hnone : p = 0
    · obtain ⟨y, hy, hfits⟩ := exists_round w' hr
      rw [if_pos hnone, hy]
      exact ⟨_, rfl, .finished hfits⟩
    · rw [if_neg hnone]
      have hwhole : x.quotient * 10 ^ p < mantissaLimit := by
        split at hlength
        · exact absurd hlength.symm hnone
        · have hspec := blockLength_spec x.quotient x.scale 9
          rw [hlength] at hspec
          exact (hspec.resolve_left hnone).1
      obtain ⟨next, hnext, hcontinues⟩ := exists_extend w' (Nat.pos_of_ne_zero hnone) hp hend hwhole
      refine ⟨next, hnext, ?_⟩
      cases hcontinues with
      | finished h => exact .finished h
      | unfinished h hscale => exact .unfinished h hscale

/-- Each round that does not end the division adds a digit, and there are at most 28. -/
theorem exists_divideFrom (rounds : Nat) (w : Whole b x) (hrounds : 28 - x.scale < rounds) :
    ∃ y, divideFrom b rounds x = some y ∧ Fits y := by
  induction rounds generalizing x with
  | zero =>
    have hscale := w.scale_le
    omega
  | succ rounds ih =>
    obtain ⟨next, hnext, hcontinues⟩ := exists_advance w
    rw [divideFrom, hnext]
    cases hcontinues with
    | finished h => exact ⟨_, rfl, h⟩
    | unfinished h hscale => exact ih h (by omega)

theorem Fits.exists_mk? {m s : Nat} (h : Fits x) (hm : m ≤ x.quotient) (hs : s ≤ x.scale.toNat)
    (negative : Bool) : ∃ d, mk? negative m s = some d := by
  have hscale := h.scale_le
  rw [mk?, dif_pos ⟨Nat.lt_of_le_of_lt hm h.lt_limit, by omega⟩]
  exact ⟨_, rfl⟩

theorem whole_start {m n s : Nat} (hm : m < mantissaLimit) (hn : n ≠ 0) (hs : s ≤ 28) :
    Whole n ⟨m / n, m % n, s, false⟩ := by
  refine ⟨⟨by show (s : Int) ≤ 28; omega, Nat.lt_of_le_of_lt (Nat.div_le_self _ _) hm⟩,
    Int.natCast_nonneg s, Nat.mod_lt _ (Nat.pos_of_ne_zero hn), fun _ hr => ?_⟩
  show m / n + 1 < mantissaLimit
  have hn : 2 ≤ n := by
    have hone : n ≠ 1 := by
      rintro rfl
      exact hr (Nat.mod_one m)
    omega
  have hhalf : m / n ≤ m / 2 := Nat.div_le_div_left hn (by decide)
  simp only [mantissaLimit] at hm ⊢
  omega

end Quotient

theorem isZero_ofUInt32 {n : UInt32} (h : n ≠ 0) : (ofUInt32 n).isZero = false :=
  beq_false_of_ne fun hzero => h (UInt32.toNat_inj.1 hzero)

theorem isZero_ofUInt64 {n : UInt64} (h : n ≠ 0) : (ofUInt64 n).isZero = false :=
  beq_false_of_ne fun hzero => h (UInt64.toNat_inj.1 hzero)

theorem exists_div?_whole {a b : Decimal} (hb : b.isZero = false) (hscale : b.scale = 0) :
    ∃ q, a.div? b = some q := by
  rw [div?, if_neg (Bool.eq_false_iff.1 hb)]
  split
  · exact ⟨zero, rfl⟩
  · have hn : b.mantissa ≠ 0 := isZero_iff.not.1 (Bool.eq_false_iff.1 hb)
    have hwhole := Quotient.whole_start a.mantissa_lt hn a.scale_le
    have hrounds : 28 - (a.scale : Int) < 57 := by omega
    obtain ⟨x, hx, hfits⟩ := Quotient.exists_divideFrom 57 hwhole hrounds
    rw [hscale, Int.natCast_zero, Int.sub_zero]
    simp only [hx, Option.bind_eq_bind, Option.bind_some]
    split
    · obtain ⟨hm, hs⟩ := stripBlocks_le (x.quotient, x.scale.toNat)
      exact hfits.exists_mk? hm hs _
    · exact hfits.exists_mk? (Nat.le_refl _) (Nat.le_refl _) _

end OrderBook.Decimal

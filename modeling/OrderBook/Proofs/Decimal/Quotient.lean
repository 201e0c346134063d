import Mathlib.Tactic.IntervalCases
import OrderBook.Proofs.Decimal.Nearest
import OrderBook.Proofs.Decimal.Ratio

/-!
Quotients are rounded correctly. Where the division ends, its quotient is the exact ratio, or it has as
many digits as there is room for, and what remains or the last digit that is given up decides on which of
the two neighbours it is.
-/

namespace OrderBook.Decimal

-- Powers are the ones that core defines.
attribute [local instance (high)] instPowNat

namespace Quotient

variable {ratio : ℚ} {b p t w : Nat} {x y : Quotient}

/-- All digits of a quotient on the way, and its remainder, in units of the divisor. -/
def total (x : Quotient) (b : Nat) : Nat := x.quotient * b + x.remainder

structure Running (ratio : ℚ) (b : Nat) (x : Quotient) : Prop extends Exact ratio b x where
  lt_limit : x.quotient < mantissaLimit

/-- A quotient at which the division ends. -/
structure Ended (ratio : ℚ) (x : Quotient) : Prop where
  scale_nonneg : 0 ≤ x.scale
  result : (x.quotient : ℚ) / 10 ^ x.scale.toNat = ratio ∨ RoundsAt ratio x.scale.toNat x.quotient

theorem total_div_mod (h : x.remainder < b) :
    x.total b / b = x.quotient ∧ x.total b % b = x.remainder := by
  have hb : 0 < b := Nat.lt_of_le_of_lt (Nat.zero_le _) h
  rw [total, Nat.mul_comm]
  exact ⟨by rw [Nat.mul_add_div hb, Nat.div_eq_of_lt h, Nat.add_zero],
    by rw [Nat.mul_add_mod, Nat.mod_eq_of_lt h]⟩

namespace Exact

theorem divisor_pos (e : Exact ratio b x) : 0 < b := Nat.lt_of_le_of_lt (Nat.zero_le _) e.remainder_lt

theorem ratio_eq (e : Exact ratio b x) (hscale : 0 ≤ x.scale) :
    ratio * 10 ^ x.scale.toNat = (x.total b : ℚ) / b := by
  have hb := e.pos
  rw [← e.eq_toNat hscale, total]
  push_cast
  field_simp

theorem isNearest (e : Exact ratio b x) (hscale : 0 ≤ x.scale) :
    IsNearest (ratio * 10 ^ x.scale.toNat) (divRoundEven (x.total b) b : Nat) := by
  rw [e.ratio_eq hscale]
  exact isNearest_divRoundEven e.divisor_pos

theorem isNearest_next (e : Exact ratio b x) (hscale : 0 ≤ x.scale) :
    IsNearest (ratio * 10 ^ (x.scale.toNat + 1)) (divRoundEven (10 * x.total b) b : Nat) := by
  have heq : ratio * 10 ^ (x.scale.toNat + 1) = ((10 * x.total b : Nat) : ℚ) / b := by
    rw [pow_succ, ← mul_assoc, e.ratio_eq hscale]
    push_cast
    ring
  rw [heq]
  exact isNearest_divRoundEven e.divisor_pos

theorem isNearest_before (e : Exact ratio b x) (hscale : x.scale = t + 1) :
    IsNearest (ratio * 10 ^ t) (divRoundEven (x.total b) (10 * b) : Nat) := by
  have heq : ratio * 10 ^ t = (x.total b : ℚ) / ((10 * b : Nat) : ℚ) := by
    have hb := e.pos
    have hat := e.ratio_eq (by omega)
    rw [show x.scale.toNat = t + 1 by omega, pow_succ, ← mul_assoc] at hat
    push_cast
    rw [mul_comm (10 : ℚ), ← div_div, ← hat]
    field_simp
  rw [heq]
  exact isNearest_divRoundEven (Nat.mul_pos (by decide) e.divisor_pos)

theorem roundsAt (e : Exact ratio b x) (hscale : 0 ≤ x.scale) (hw : divRoundEven (x.total b) b = w)
    (hroom : w < mantissaLimit) (hfull : x.scale = 28 ∨ mantissaLimit ≤ x.quotient * 10) :
    RoundsAt ratio x.scale.toNat w := by
  have hmax := e.scale_le
  refine ⟨hw ▸ e.isNearest hscale, ?_, by omega, ?_⟩
  · rw [Nat.abs_cast]
    exact_mod_cast hroom
  · refine hfull.imp (fun h => by omega) fun hlong => ⟨_, e.isNearest_next hscale, ?_⟩
    have hdigit : x.quotient * 10 * b ≤ 10 * x.total b := by
      rw [total, Nat.mul_right_comm, Nat.mul_comm _ 10]
      exact Nat.mul_le_mul_left _ (Nat.le_add_right _ _)
    rw [Nat.abs_cast]
    exact_mod_cast Nat.le_trans hlong (le_divRoundEven e.divisor_pos hdigit)

/-- The digits that are there have no room, but without the last one they have. -/
theorem roundsAt_before (e : Exact ratio b x) (hscale : x.scale = t + 1)
    (hlong : mantissaLimit ≤ divRoundEven (x.total b) b)
    (hw : divRoundEven (x.total b) (10 * b) = w) (hroom : w < mantissaLimit) : RoundsAt ratio t w := by
  have hmax := e.scale_le
  have hnearest := e.isNearest (by omega)
  rw [show x.scale.toNat = t + 1 by omega] at hnearest
  refine ⟨hw ▸ e.isNearest_before hscale, ?_, by omega, .inr ⟨_, hnearest, ?_⟩⟩
  · rw [Nat.abs_cast]
    exact_mod_cast hroom
  · rw [Nat.abs_cast]
    exact_mod_cast hlong

end Exact

/-- The last digit and the remainder together decide like an exact quotient. -/
theorem dropDigit_eq (h : x.remainder < b) :
    dropDigit x.quotient (x.remainder != 0) = divRoundEven (x.total b) (10 * b) := by
  obtain ⟨hdiv, hmod⟩ := total_div_mod h
  have hquotient : x.total b / (10 * b) = x.quotient / 10 := by
    rw [Nat.mul_comm, ← Nat.div_div_eq_div_mul, hdiv]
  have hrest : x.total b % (10 * b) = x.remainder + b * (x.quotient % 10) := by
    rw [Nat.mul_comm 10, Nat.mod_mul, hdiv, hmod]
  have hdigit : x.quotient % 10 < 10 := Nat.mod_lt _ (by decide)
  simp only [dropDigit, divRoundEven, hquotient, hrest]
  generalize x.quotient / 10 = k
  generalize x.quotient % 10 = digit at hdigit
  by_cases hzero : x.remainder = 0
  · rw [hzero] at h ⊢
    interval_cases digit <;> simp <;> grind
  · rw [bne_iff_ne.2 hzero]
    interval_cases digit <;> simp <;> omega

theorem ended_round (r : Running ratio b x) (hscale : 0 ≤ x.scale)
    (hfull : x.scale = 28 ∨ mantissaLimit ≤ x.quotient * 10) (h : x.round b = some y) :
    Ended ratio y := by
  have e := r.toExact
  have hrounded : divRoundEven (x.total b) b =
      if b < 2 * x.remainder ∨ (2 * x.remainder = b ∧ x.quotient % 2 = 1) then x.quotient + 1
      else x.quotient := by
    obtain ⟨hdiv, hmod⟩ := total_div_mod e.remainder_lt
    simp only [divRoundEven, hdiv, hmod]
  simp only [round] at h
  split at h
  · rename_i hup
    rw [if_pos hup] at hrounded
    split at h
    · rename_i hlimit
      split at h
      · cases h
      · rename_i hpositive
        cases h
        -- The next number has a digit less.
        rw [hlimit] at hrounded
        obtain ⟨t, ht⟩ : ∃ t : Nat, x.scale = t + 1 := ⟨(x.scale - 1).toNat, by omega⟩
        have hten : divRoundEven (x.total b) (10 * b) = (mantissaLimit + 4) / 10 := by
          refine Nat.le_antisymm ?_ ?_
          · refine divRoundEven_le (Nat.mul_pos (by decide) e.divisor_pos) ?_
            have hrest := e.remainder_lt
            have htotal : x.total b ≤ mantissaLimit * b := by
              rw [total, ← hlimit, Nat.succ_mul]
              omega
            rw [← Nat.mul_assoc]
            refine Nat.le_trans htotal (Nat.mul_le_mul_right b (by decide))
          · refine le_divRoundEven_ten e.divisor_pos ?_
            have hhalf := half_le_of_lt_divRoundEven (k := mantissaLimit - 1)
              (hrounded.symm ▸ by decide : mantissaLimit - 1 < divRoundEven (x.total b) b)
            exact hhalf
        refine ⟨by show 0 ≤ x.scale - 1; omega, .inr ?_⟩
        show RoundsAt ratio (x.scale - 1).toNat _
        rw [show (x.scale - 1).toNat = t by omega]
        exact e.roundsAt_before ht (Nat.le_of_eq hrounded.symm) hten (by decide : (mantissaLimit + 4) / 10 < _)
    · rename_i hlimit
      cases h
      have hroom : x.quotient + 1 < mantissaLimit := by
        have := r.lt_limit
        omega
      exact ⟨hscale, .inr (e.roundsAt hscale hrounded hroom hfull)⟩
  · rename_i hdown
    rw [if_neg hdown] at hrounded
    cases h
    exact ⟨hscale, .inr (e.roundsAt hscale hrounded r.lt_limit hfull)⟩

/-- Where a round leaves a division that goes right. -/
inductive Advances (ratio : ℚ) (b : Nat) : Round → Prop
  | finished {y : Quotient} (h : Ended ratio y) : Advances ratio b (.finished y)
  | unfinished {y : Quotient} (h : Running ratio b y) : Advances ratio b (.unfinished y)

theorem dropDigit_le (q : Nat) (more : Bool) : dropDigit q more ≤ q / 10 + 1 := by
  rw [dropDigit]
  split
  · exact Nat.le_refl _
  · exact (divRoundEven_bounds q 10).2

theorem dropDigit_lt_limit {q r : Nat} (more : Bool) (hwhole : q * 10 ^ p < mantissaLimit) (hr : r < b)
    (hp : p ≤ 9) : dropDigit (q * 10 ^ p + r * 10 ^ p / b) more < mantissaLimit := by
  have hb : 0 < b := Nat.lt_of_le_of_lt (Nat.zero_le _) hr
  have hdigits : r * 10 ^ p / b < 10 ^ p := by
    rw [Nat.div_lt_iff_lt_mul hb, Nat.mul_comm]
    exact Nat.mul_lt_mul_of_pos_left hr (ten_pow_pos p)
  have hblock : 10 ^ p ≤ 10 ^ 9 := Nat.pow_le_pow_right (by decide) hp
  have hle := dropDigit_le (q * 10 ^ p + r * 10 ^ p / b) more
  simp only [mantissaLimit] at hwhole ⊢
  omega

/-- A block of digits. If there is no room for all of them, there is room for all but one. -/
theorem advances_extend (r : Running ratio b x) (hscale : x.scale + p ≤ 28) (hp : p ≤ 9) {next : Round}
    (h : x.extend b p = some next) : Advances ratio b next := by
  have e := r.toExact.extend hscale
  simp only [extend] at h
  split at h
  · cases h
  · rename_i hwhole
    split at h
    · rename_i hroom
      cases h
      exact .unfinished ⟨e, hroom⟩
    · rename_i hlong
      split at h
      · cases h
      · rename_i hpositive
        cases h
        obtain ⟨t, ht⟩ : ∃ t : Nat, x.scale + p = t + 1 := ⟨(x.scale + p - 1).toNat, by omega⟩
        have hdropped := dropDigit_lt_limit (x.remainder * 10 ^ p % b != 0) (Nat.not_le.1 hwhole)
          r.remainder_lt hp
        generalize x.quotient * 10 ^ p + x.remainder * 10 ^ p / b = q at e hlong hdropped ⊢
        generalize x.remainder * 10 ^ p % b = rest at e hdropped ⊢
        have hlonger : mantissaLimit ≤ divRoundEven (total ⟨q, rest, x.scale + p, x.inexact⟩ b) b :=
          le_divRoundEven r.divisor_pos
            (Nat.le_add_right_of_le (Nat.mul_le_mul_right b (Nat.not_lt.1 hlong)))
        refine .finished ⟨by show 0 ≤ x.scale + p - 1; omega, .inr ?_⟩
        show RoundsAt ratio (x.scale + p - 1).toNat (dropDigit q (rest != 0) : Nat)
        rw [show (x.scale + p - 1).toNat = t by omega]
        exact e.roundsAt_before ht hlonger (dropDigit_eq e.remainder_lt).symm hdropped

theorem block_spec {q : Nat} {s : Int} (hs : s ≤ 28)
    (hp : (if s = 28 then 0 else blockLength q s 9) = p) :
    p ≤ 9 ∧ s + p ≤ 28 ∧ (p = 0 → s = 28 ∨ mantissaLimit ≤ q * 10) := by
  split at hp
  · rename_i hfull
    subst hp
    exact ⟨by omega, by omega, fun _ => .inl hfull⟩
  · rename_i hroom
    have hspec := blockLength_spec q s 9
    have hle := blockLength_le q s 9
    rw [hp] at hspec hle
    refine ⟨hle, by omega, fun hnone => .inr ?_⟩
    by_contra hdigit
    have hpos : 0 < blockLength q s 9 := blockLength_pos (Nat.not_le.1 hdigit) (by omega) 8
    omega

theorem advances_advance (r : Running ratio b x) {next : Round} (h : x.advance b = some next) :
    Advances ratio b next := by
  have hmax := r.scale_le
  rw [advance] at h
  by_cases hr : x.remainder = 0
  · rw [if_pos hr] at h
    split at h
    · rename_i hscale
      cases h
      have heq := r.eq_toNat hscale
      rw [hr, Nat.cast_zero, zero_div, add_zero] at heq
      refine .finished ⟨hscale, .inl ?_⟩
      rw [heq, mul_div_cancel_right₀ _ (by positivity)]
    · exact advances_extend r (by omega) (Nat.min_le_left _ _) h
  · rw [if_neg hr] at h
    have r' : Running ratio b { x with inexact := true } := ⟨⟨r.eq, r.remainder_lt, r.scale_le⟩, r.lt_limit⟩
    dsimp only at h
    generalize hp : (if x.scale = 28 then 0 else blockLength x.quotient x.scale 9) = p at h
    obtain ⟨hp, hend, hnone⟩ := block_spec hmax hp
    split at h
    · cases h
    · rename_i hpoint
      split at h
      · rename_i hzero
        obtain ⟨y, hy, rfl⟩ := Option.map_eq_some_iff.1 h
        exact .finished (ended_round r' (by show 0 ≤ x.scale; omega) (hnone hzero) hy)
      · exact advances_extend r' hend hp h

theorem ended_divideFrom (rounds : Nat) (r : Running ratio b x) (h : divideFrom b rounds x = some y) :
    Ended ratio y := by
  induction rounds generalizing x with
  | zero => cases h
  | succ rounds ih =>
    rw [divideFrom] at h
    cases hnext : x.advance b with
    | none =>
      rw [hnext] at h
      cases h
    | some next =>
      rw [hnext] at h
      cases advances_advance r hnext with
      | finished hended =>
        cases h
        exact hended
      | unfinished hrunning => exact ih hrunning h

end Quotient

theorem rounds_div? {a b q : Decimal} (h : a.div? b = some q) : Rounds (a.value / b.value) q := by
  rw [div?] at h
  split at h
  · cases h
  · rename_i hb
    split at h
    · rename_i ha
      cases h
      exact rounds_of_value_eq (by rw [value_zero, value_of_isZero ha, zero_div])
    · obtain ⟨x, hx, h⟩ := Option.bind_eq_some_iff.1 h
      have e := exact_start a (Bool.eq_false_iff.2 hb)
      have hended := Quotient.ended_divideFrom 57
        ⟨e, Nat.lt_of_le_of_lt (Nat.div_le_self _ _) a.mantissa_lt⟩ hx
      rw [value_div_value]
      generalize (a.mantissa : ℚ) / 10 ^ a.scale / ((b.mantissa : ℚ) / 10 ^ b.scale) = ratio at hended
      have hresult : ∀ m s : Nat, (m : ℚ) / 10 ^ s = (x.quotient : ℚ) / 10 ^ x.scale.toNat →
          mk? (a.negative != b.negative) m s = some q →
            Rounds (signOf (a.negative != b.negative) * ratio) q := by
        intro m s hsame hq
        obtain ⟨hnegative, rfl, rfl⟩ := mk?_eq_some hq
        cases hended.result with
        | inl hexact => exact rounds_of_value_eq (by rw [value_of_negative hnegative, hsame, hexact])
        | inr hat => exact rounds_of_size hnegative hat (by rw [hsame, Int.cast_natCast])
      -- Trailing zeros that are given back do not change the value.
      dsimp only at h
      split at h
      · exact hresult _ _ (stripBlocks_value (x.quotient, x.scale.toNat)) h
      · exact hresult _ _ rfl h

end OrderBook.Decimal

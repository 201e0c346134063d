import OrderBook.Decimal.Arithmetic

/-!
Rounding keeps bounds that are numbers themselves. A number gives up digits only when its mantissa
would leave the range, so another number that lies below the exact value lies below the rounded one,
and the same holds above.
-/

namespace OrderBook.Decimal

-- Powers are the ones that core defines.
attribute [local instance (high)] instPowNat

theorem ten_pow_pos (n : Nat) : 0 < 10 ^ n := Nat.pow_pos (by decide)

/-! Rounded quotients -/

theorem le_divRoundEven {n d k : Nat} (hd : 0 < d) (h : k * d ≤ n) : k ≤ divRoundEven n d :=
  Nat.le_trans ((Nat.le_div_iff_mul_le hd).2 h) (divRoundEven_bounds n d).1

theorem divRoundEven_mul {d : Nat} (hd : 0 < d) (k : Nat) : divRoundEven (k * d) d = k := by
  have hq : k * d / d = k := Nat.mul_div_cancel k hd
  have hr : k * d % d = 0 := Nat.mul_mod_left k d
  simp only [divRoundEven, hq, hr]
  rw [if_neg]
  omega

theorem divRoundEven_le {n d k : Nat} (hd : 0 < d) (h : n ≤ k * d) : divRoundEven n d ≤ k := by
  by_cases hlt : n / d < k
  · exact Nat.le_trans (divRoundEven_bounds n d).2 hlt
  · have hge : k * d ≤ n := (Nat.le_div_iff_mul_le hd).1 (Nat.le_of_not_lt hlt)
    have heq : n = k * d := Nat.le_antisymm h hge
    exact Nat.le_of_eq (heq ▸ divRoundEven_mul hd k)

theorem half_le_of_lt_divRoundEven {n d k : Nat} (h : k < divRoundEven n d) :
    (2 * k + 1) * d ≤ 2 * n := by
  have hn := Nat.div_add_mod n d
  have hbounds := divRoundEven_bounds n d
  by_cases hq : k < n / d
  · have hmul : d * (k + 1) ≤ d * (n / d) := Nat.mul_le_mul_left d hq
    rw [Nat.mul_succ] at hmul
    have hk : (2 * k + 1) * d = 2 * (d * k) + d := by
      rw [Nat.add_mul, Nat.mul_assoc, Nat.one_mul, Nat.mul_comm k d]
    omega
  · have hk : n / d = k := by omega
    have hup : d ≤ 2 * (n % d) := by
      simp only [divRoundEven, hk] at h
      split at h <;> omega
    have hkd : (2 * k + 1) * d = 2 * (d * (n / d)) + d := by
      rw [hk, Nat.add_mul, Nat.mul_assoc, Nat.one_mul, Nat.mul_comm k d]
    omega

/-- A mantissa that is too long by less than one digit keeps the room it had when it loses that
digit. -/
theorem le_divRoundEven_ten {n d : Nat} (hd : 0 < d) (h : (2 * mantissaLimit - 1) * d ≤ 2 * n) :
    (mantissaLimit + 4) / 10 ≤ divRoundEven n (10 * d) := by
  have hn := Nat.div_add_mod n (10 * d)
  have hbounds := divRoundEven_bounds n (10 * d)
  have hmod : n % (10 * d) < 10 * d := Nat.mod_lt _ (by omega)
  simp only [mantissaLimit] at h ⊢
  by_cases hq : n / (10 * d) + 1 < 7922816251426433759354395034
  · have hmul : 10 * d * (n / (10 * d)) ≤ 10 * d * 7922816251426433759354395032 :=
      Nat.mul_le_mul_left _ (by omega)
    omega
  · by_cases hlast : n / (10 * d) = 7922816251426433759354395033
    · have hup : 10 * d < 2 * (n % (10 * d)) := by
        rw [hlast] at hn
        omega
      simp only [divRoundEven, hup, true_or, if_true, hlast]
      omega
    · omega

/-! Making a value fit -/

theorem mk?_eq_some {negative : Bool} {m s : Nat} {d : Decimal} (h : mk? negative m s = some d) :
    d.negative = (negative && m != 0) ∧ d.mantissa = m ∧ d.scale = s := by
  simp only [mk?] at h
  split at h
  · cases h
    exact ⟨rfl, rfl, rfl⟩
  · cases h

theorem mk?_eq_none {negative : Bool} {m s : Nat} (hs : s ≤ 28) (h : mk? negative m s = none) :
    mantissaLimit ≤ m := by
  simp only [mk?] at h
  split at h
  · cases h
  · omega

/-- The result of making a value fit: as many digits as there is room for, unless there are no more. -/
structure Fitted (negative : Bool) (v s : Nat) (d : Decimal) : Prop where
  negative : d.negative = (negative && d.mantissa != 0)
  mantissa : d.mantissa = divRoundEven v (10 ^ (s - d.scale))
  scale_le : d.scale ≤ s
  full : d.scale = min s 28 ∨
    d.scale < s ∧ mantissaLimit ≤ divRoundEven v (10 ^ (s - (d.scale + 1)))

theorem fitted_fit {negative : Bool} {v s : Nat} {d : Decimal} (h : fit negative v s = some d) :
    Fitted negative v s d := by
  have hat : ∀ t, t ≤ min s 28 → (t = min s 28 ∨
      t < s ∧ mantissaLimit ≤ divRoundEven v (10 ^ (s - (t + 1)))) →
      fitAt negative v s t = some d → Fitted negative v s d := by
    intro t
    induction t with
    | zero =>
      intro ht hfull h
      obtain ⟨hn, hm, hs⟩ := mk?_eq_some h
      refine ⟨by rw [hn, hm], ?_, by omega, by rw [hs]; exact hfull⟩
      rw [hm, hs, Nat.sub_zero]
    | succ t ih =>
      intro ht hfull h
      simp only [fitAt] at h
      cases hmk : mk? negative (divRoundEven v (10 ^ (s - (t + 1)))) (t + 1) with
      | some e =>
        rw [hmk, Option.some_or] at h
        cases h
        obtain ⟨hn, hm, hs⟩ := mk?_eq_some hmk
        exact ⟨by rw [hn, hm], by rw [hm, hs], by omega, by rw [hs]; exact hfull⟩
      | none =>
        rw [hmk, Option.none_or] at h
        have hlong := mk?_eq_none (by omega) hmk
        exact ih (by omega) (.inr ⟨by omega, hlong⟩) h
  exact hat _ (Nat.le_refl _) (.inl rfl) h

theorem exists_fit {negative : Bool} {v s k : Nat} (hk : k < mantissaLimit) (h : v ≤ k * 10 ^ s) :
    ∃ d, fit negative v s = some d := by
  have hat : ∀ t, ∃ d, fitAt negative v s t = some d := by
    intro t
    induction t with
    | zero =>
      have hm := divRoundEven_le (ten_pow_pos s) h
      rw [fitAt, mk?, dif_pos ⟨by omega, scale_zero_le⟩]
      exact ⟨_, rfl⟩
    | succ t ih =>
      rw [fitAt]
      cases mk? negative (divRoundEven v (10 ^ (s - (t + 1)))) (t + 1) with
      | some d => exact ⟨d, rfl⟩
      | none => exact ih
  exact hat _

theorem ten_pow_sub_mul {a b : Nat} (h : a ≤ b) : 10 ^ (b - a) * 10 ^ a = 10 ^ b := by
  rw [← Nat.pow_add, Nat.sub_add_cancel h]

/-- Where digits were given up, the mantissa uses nearly the whole range. -/
theorem Fitted.long {negative : Bool} {v s : Nat} {d : Decimal} (f : Fitted negative v s d)
    (hlt : d.scale < s) (hlong : mantissaLimit ≤ divRoundEven v (10 ^ (s - (d.scale + 1)))) :
    (2 * mantissaLimit - 1) * 10 ^ (s - (d.scale + 1)) ≤ 2 * v ∧
      mantissaLimit ≤ 10 * d.mantissa := by
  have hhalf := half_le_of_lt_divRoundEven (Nat.lt_of_lt_of_le (by decide) hlong :
    mantissaLimit - 1 < divRoundEven v (10 ^ (s - (d.scale + 1))))
  have hcoefficient : 2 * (mantissaLimit - 1) + 1 = 2 * mantissaLimit - 1 := by decide
  rw [hcoefficient] at hhalf
  have hstep : 10 ^ (s - d.scale) = 10 * 10 ^ (s - (d.scale + 1)) := by
    rw [show s - d.scale = s - (d.scale + 1) + 1 by omega, Nat.pow_succ, Nat.mul_comm]
  have hten := le_divRoundEven_ten (ten_pow_pos _) hhalf
  rw [← hstep, ← f.mantissa] at hten
  refine ⟨hhalf, ?_⟩
  simp only [mantissaLimit] at hten ⊢
  omega

theorem Fitted.le {negative : Bool} {v s : Nat} {c d : Decimal} (f : Fitted negative v s d)
    (h : c.mantissa * 10 ^ s ≤ v * 10 ^ c.scale) :
    c.mantissa * 10 ^ d.scale ≤ d.mantissa * 10 ^ c.scale := by
  by_cases hscale : c.scale ≤ d.scale
  · -- The number lies on the grid of the result.
    have hgrid : c.mantissa * 10 ^ (d.scale - c.scale) * 10 ^ (s - d.scale) ≤ v := by
      refine Nat.le_of_mul_le_mul_right ?_ (ten_pow_pos c.scale)
      have hexponent : d.scale - c.scale + (s - d.scale) + c.scale = s := by
        have := f.scale_le
        omega
      rw [Nat.mul_assoc, Nat.mul_assoc, ← Nat.mul_assoc (10 ^ _), ← Nat.pow_add, ← Nat.pow_add,
        hexponent]
      exact h
    have hm := le_divRoundEven (ten_pow_pos _) hgrid
    rw [← f.mantissa] at hm
    rw [← ten_pow_sub_mul hscale, ← Nat.mul_assoc]
    exact Nat.mul_le_mul_right _ hm
  · cases f.full with
    | inl hmin =>
      have hs : s = d.scale := by
        have := c.scale_le
        omega
      have hm := f.mantissa
      rw [← hs, Nat.sub_self, Nat.pow_zero, divRoundEven_one] at hm
      rw [← hs, hm]
      exact h
    | inr hfull =>
      obtain ⟨-, hlong⟩ := f.long hfull.1 hfull.2
      have hc : c.mantissa ≤ 10 * d.mantissa :=
        Nat.le_trans (Nat.le_of_lt c.mantissa_lt) hlong
      have hpow : 10 ^ (d.scale + 1) ≤ 10 ^ c.scale :=
        Nat.pow_le_pow_right (by decide) (by omega)
      calc c.mantissa * 10 ^ d.scale ≤ 10 * d.mantissa * 10 ^ d.scale :=
            Nat.mul_le_mul_right _ hc
        _ = d.mantissa * 10 ^ (d.scale + 1) := by
            rw [Nat.pow_succ, Nat.mul_comm 10, Nat.mul_assoc, Nat.mul_comm 10]
        _ ≤ d.mantissa * 10 ^ c.scale := Nat.mul_le_mul_left _ hpow

theorem Fitted.ge {negative : Bool} {v s : Nat} {c d : Decimal} (f : Fitted negative v s d)
    (h : v * 10 ^ c.scale ≤ c.mantissa * 10 ^ s) :
    d.mantissa * 10 ^ c.scale ≤ c.mantissa * 10 ^ d.scale := by
  by_cases hscale : c.scale ≤ d.scale
  · have hgrid : v ≤ c.mantissa * 10 ^ (d.scale - c.scale) * 10 ^ (s - d.scale) := by
      refine Nat.le_of_mul_le_mul_right ?_ (ten_pow_pos c.scale)
      have hexponent : d.scale - c.scale + (s - d.scale) + c.scale = s := by
        have := f.scale_le
        omega
      rw [Nat.mul_assoc, Nat.mul_assoc, ← Nat.mul_assoc (10 ^ _), ← Nat.pow_add, ← Nat.pow_add,
        hexponent]
      exact h
    have hm := divRoundEven_le (ten_pow_pos _) hgrid
    rw [← f.mantissa] at hm
    rw [← ten_pow_sub_mul hscale, ← Nat.mul_assoc]
    exact Nat.mul_le_mul_right _ hm
  · cases f.full with
    | inl hmin =>
      have hs : s = d.scale := by
        have := c.scale_le
        omega
      have hm := f.mantissa
      rw [← hs, Nat.sub_self, Nat.pow_zero, divRoundEven_one] at hm
      rw [← hs, hm]
      exact h
    | inr hfull =>
      -- With digits given up the exact value lies above every number of a finer scale.
      obtain ⟨hhalf, -⟩ := f.long hfull.1 hfull.2
      have hexponent : s - (d.scale + 1) + c.scale = s + (c.scale - (d.scale + 1)) := by
        have := hfull.1
        omega
      have hpow : 10 ^ s ≤ 10 ^ (s - (d.scale + 1)) * 10 ^ c.scale := by
        rw [← Nat.pow_add, hexponent]
        exact Nat.pow_le_pow_right (by decide) (Nat.le_add_right _ _)
      have hlow : (2 * mantissaLimit - 1) * 10 ^ s ≤ 2 * v * 10 ^ c.scale := by
        apply Nat.le_trans (Nat.mul_le_mul_left _ hpow)
        rw [← Nat.mul_assoc]
        exact Nat.mul_le_mul_right _ hhalf
      have hhigh : 2 * v * 10 ^ c.scale ≤ 2 * (mantissaLimit - 1) * 10 ^ s := by
        rw [Nat.mul_assoc, Nat.mul_assoc]
        refine Nat.mul_le_mul_left 2 (Nat.le_trans h (Nat.mul_le_mul_right _ ?_))
        have := c.mantissa_lt
        omega
      have hpos := ten_pow_pos s
      simp only [mantissaLimit] at hlow hhigh
      omega

end OrderBook.Decimal

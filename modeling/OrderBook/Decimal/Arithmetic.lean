import OrderBook.Decimal.Basic

/-!
Addition, subtraction and multiplication. Each works exactly on integers and then makes the result
fit: it gives up the fewest last digits that bring the mantissa below 2^96, rounding half to even,
and fails when not even the whole part fits.
-/

namespace OrderBook.Decimal

-- Powers are the ones that core defines.
attribute [local instance (high)] instPowNat

/-- The quotient rounded to nearest; a tie goes to the even neighbour. -/
def divRoundEven (n d : Nat) : Nat :=
  let q := n / d
  let r := n % d
  if d < 2 * r ∨ (2 * r = d ∧ q % 2 = 1) then q + 1 else q

theorem divRoundEven_one (n : Nat) : divRoundEven n 1 = n := by
  simp [divRoundEven]; omega

theorem divRoundEven_bounds (n d : Nat) :
    n / d ≤ divRoundEven n d ∧ divRoundEven n d ≤ n / d + 1 := by
  simp only [divRoundEven]; split <;> omega

/-- Tries the scales `t`, `t - 1`, … `0` for the value `v / 10 ^ s` and takes the first that fits. -/
def fitAt (negative : Bool) (v s : Nat) : Nat → Option Decimal
  | 0 => mk? negative (divRoundEven v (10 ^ s)) 0
  | t + 1 =>
    (mk? negative (divRoundEven v (10 ^ (s - (t + 1)))) (t + 1)).or (fitAt negative v s t)

/-- The number nearest to `v / 10 ^ s` with the most fraction digits that leave room for it. -/
def fit (negative : Bool) (v s : Nat) : Option Decimal :=
  fitAt negative v s (min s 28)

/-- An exact signed sum of coefficients at a common scale. -/
def ofCoefficient? (c : Int) (s : Nat) : Option Decimal :=
  fit (c < 0) c.natAbs s

/-- A zero operand leaves the other one as it is, with its scale. -/
def add? (a b : Decimal) : Option Decimal :=
  if a.isZero then some b
  else if b.isZero then some a
  else
    let s := max a.scale b.scale
    ofCoefficient? (a.coefficient * 10 ^ (s - a.scale) + b.coefficient * 10 ^ (s - b.scale)) s

def sub? (a b : Decimal) : Option Decimal :=
  a.add? b.neg

/-- Products of two numbers that are both this small vanish: more than 47 fraction digits with
mantissas below 2^32 lie under half of the last digit. -/
def vanishes (a b : Decimal) : Bool :=
  47 < a.scale + b.scale && a.mantissa < UInt32.size && b.mantissa < UInt32.size

def mul? (a b : Decimal) : Option Decimal :=
  if a.isZero || b.isZero || vanishes a b then some zero
  else fit (a.negative != b.negative) (a.mantissa * b.mantissa) (a.scale + b.scale)

end OrderBook.Decimal

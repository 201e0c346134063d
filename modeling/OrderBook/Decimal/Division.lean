import OrderBook.Decimal.Arithmetic

/-!
Division. Quotient digits are produced in blocks of up to nine until the division comes out even or
no further digit fits; the last one is then rounded half to even. A quotient that needed fraction
digits gives some of its trailing zeros back, in blocks of eight, four, two and one.
-/

namespace OrderBook.Decimal

-- Powers are the ones that core defines.
attribute [local instance (high)] instPowNat

/-- A quotient under construction: `quotient / 10 ^ scale` so far, with the remainder still to be
divided. The scale is negative while whole digits are missing. -/
structure Quotient where
  quotient : Nat
  remainder : Nat
  scale : Int
  /-- Whether a digit past the exact part was asked for. -/
  inexact : Bool

/-- The longest block of at most `n` digits that still fits behind `q` at scale `s`. -/
def blockLength (q : Nat) (s : Int) : Nat → Nat
  | 0 => 0
  | n + 1 => if q * 10 ^ (n + 1) < mantissaLimit ∧ s + (n + 1) ≤ 28 then n + 1 else blockLength q s n

theorem blockLength_le (q : Nat) (s : Int) (n : Nat) : blockLength q s n ≤ n := by
  induction n with
  | zero => exact Nat.le_refl 0
  | succ n ih => simp only [blockLength]; split <;> omega

/-- Takes the last digit away, rounding half to even, where `more` says that the true value lies
above the digits shown. -/
def Quotient.dropDigit (q : Nat) (more : Bool) : Nat :=
  if more && q % 10 == 5 then q / 10 + 1 else divRoundEven q 10

/-- Leaves the division here and rounds by what remains. -/
def Quotient.round (x : Quotient) (divisor : Nat) : Option Quotient :=
  if divisor < 2 * x.remainder ∨ (2 * x.remainder = divisor ∧ x.quotient % 2 = 1) then
    if x.quotient + 1 = mantissaLimit then
      if x.scale < 1 then none
      else some { x with quotient := (mantissaLimit + 4) / 10, scale := x.scale - 1 }
    else some { x with quotient := x.quotient + 1 }
  else some x

/-- Where a round leaves the division. -/
inductive Round where
  | finished (x : Quotient)
  | unfinished (x : Quotient)

/-- Appends `p` digits; if they do not fit, the last one is given up and the division ends. -/
def Quotient.extend (x : Quotient) (divisor p : Nat) : Option Round :=
  let whole := x.quotient * 10 ^ p
  if mantissaLimit ≤ whole then none
  else
    let q := whole + x.remainder * 10 ^ p / divisor
    let r := x.remainder * 10 ^ p % divisor
    let s := x.scale + p
    if q < mantissaLimit then some (.unfinished ⟨q, r, s, x.inexact⟩)
    else if s < 1 then none
    else some (.finished ⟨dropDigit q (r != 0), r, s - 1, x.inexact⟩)

/-- One round: end, or fill up the whole digits, or append a block of fraction digits. -/
def Quotient.advance (x : Quotient) (divisor : Nat) : Option Round :=
  if x.remainder = 0 then
    if 0 ≤ x.scale then some (.finished x) else x.extend divisor (min 9 (-x.scale).toNat)
  else
    let y := { x with inexact := true }
    let p := if x.scale = 28 then 0 else blockLength x.quotient x.scale 9
    if p < 9 ∧ x.scale + (p : Int) < 0 then none
    else if p = 0 then (y.round divisor).map .finished
    else y.extend divisor p

/-- Runs the division. Each round adds at least one digit to the scale, which starts at -28 or
more and never passes 28, so 57 rounds are enough. -/
def divideFrom (divisor : Nat) : Nat → Quotient → Option Quotient
  | 0, _ => none
  | rounds + 1, x =>
    match x.advance divisor with
    | none => none
    | some (.finished y) => some y
    | some (.unfinished y) => divideFrom divisor rounds y

/-- Gives `digits` trailing zeros back if they are there, and if `twos` divides the mantissa. -/
def stripZeros (twos digits : Nat) (x : Nat × Nat) : Nat × Nat :=
  if x.1 % twos = 0 ∧ digits ≤ x.2 ∧ x.1 % 10 ^ digits = 0 then (x.1 / 10 ^ digits, x.2 - digits) else x

/-- Blocks of eight as long as they are there, which is three times at most, then four, two, one. -/
def stripBlocks (x : Nat × Nat) : Nat × Nat :=
  let eights := stripZeros UInt32.size 8 (stripZeros UInt32.size 8 (stripZeros UInt32.size 8 x))
  stripZeros 2 1 (stripZeros 4 2 (stripZeros 16 4 eights))

def div? (a b : Decimal) : Option Decimal :=
  if b.isZero then none
  else if a.isZero then some zero
  else do
    let start : Quotient :=
      ⟨a.mantissa / b.mantissa, a.mantissa % b.mantissa, (a.scale : Int) - b.scale, false⟩
    let x ← divideFrom b.mantissa 57 start
    let (m, s) := if x.inexact then stripBlocks (x.quotient, x.scale.toNat) else (x.quotient, x.scale.toNat)
    mk? (a.negative != b.negative) m s

end OrderBook.Decimal

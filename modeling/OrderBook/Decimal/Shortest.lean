import OrderBook.Text.Digits

/-!
The fewest decimal digits that single out a binary floating-point number. A finite nonzero double is
`m * 2 ^ q`; the reals that round to it form an interval around it, ends included when `m` is even.
For one digit, two digits, and so on up to seventeen, the two neighbours of the value on that decimal
grid are tested; the first grid with a hit wins, and of two hits the nearer, or the larger if both are
equally near.
-/

namespace OrderBook.Decimal.Shortest

open OrderBook.Text

-- Powers are the ones that core defines.
attribute [local instance (high)] instPowNat

/-- A positive double as `mantissa * 2 ^ exponent`. -/
structure Binary where
  mantissa : Nat
  exponent : Int

/-- The leading bit of a mantissa, which the format does not write down. -/
def hiddenBit : Nat := 0x10000000000000

/-- The parts of a finite double without its sign. -/
def Binary.ofFloat (x : Float) : Binary :=
  let bits := x.toBits.toNat
  let e : Nat := bits / hiddenBit % 0x800
  let f := bits % hiddenBit
  if e = 0 then ⟨f, -1074⟩ else ⟨hiddenBit + f, (e : Int) - 1075⟩

/-- Compares `a * 10 ^ i` with `b * 2 ^ j` in whole numbers. -/
def comparePowers (a : Nat) (i : Int) (b : Nat) (j : Int) : Ordering :=
  compare (a * 10 ^ i.toNat * 2 ^ (-j).toNat) (b * 2 ^ j.toNat * 10 ^ (-i).toNat)

/-- Whether `a * 10 ^ i` rounds to `x`. Below a power of two the gap is half as wide. -/
def roundsTo (x : Binary) (a : Nat) (i : Int) : Bool :=
  let narrow := x.mantissa = hiddenBit ∧ -1074 < x.exponent
  let low := comparePowers a i (4 * x.mantissa - if narrow then 1 else 2) (x.exponent - 2)
  let high := comparePowers a i (4 * x.mantissa + 2) (x.exponent - 2)
  if x.mantissa % 2 = 0 then low != .lt && high != .gt else low == .gt && high == .lt

/-- The value in units of `10 ^ i`, cut to a whole number. -/
def inUnits (x : Binary) (i : Int) : Nat :=
  x.mantissa * 2 ^ x.exponent.toNat * 10 ^ (-i).toNat / (2 ^ (-x.exponent).toNat * 10 ^ i.toNat)

/-- The least `k` with the value below `10 ^ k`; no double is smaller than `10 ^ -330`. -/
def magnitude (x : Binary) : Int := ((natural (inUnits x (-330))).length : Int) - 330

/-- The neighbour of `x` on the grid `10 ^ i` that rounds to it, if one does. -/
def onGrid (x : Binary) (i : Int) : Option Nat :=
  let a := inUnits x i
  match roundsTo x a i, roundsTo x (a + 1) i with
  | true, false => some a
  | false, true => some (a + 1)
  | false, false => none
  | true, true =>
    match comparePowers (2 * a + 1) i (2 * x.mantissa) x.exponent with
    | .gt => some a
    | _ => some (a + 1)

/-- The digits and the power of ten they count, from the grid with `n` digits on. -/
def search (x : Binary) : Nat → Nat → Nat × Int
  | 0, _ => (inUnits x x.exponent, x.exponent)
  | more + 1, n =>
    let i := magnitude x - n
    match onGrid x i with
    | some a => (a, i)
    | none => search x more (n + 1)

/-- `a * 10 ^ i` without an exponent. -/
def positional (a : Nat) (i : Int) : List Char :=
  let digits := natural a
  if 0 ≤ i then digits ++ List.replicate i.toNat '0'
  else
    let places := (-i).toNat
    let whole := a / 10 ^ places
    natural whole ++ '.' :: padded places (a % 10 ^ places)

/-- Removes the zeros that end `a`, at most `n` of them. -/
def withoutZeros (a : Nat) (i : Int) : Nat → Nat × Int
  | 0 => (a, i)
  | n + 1 => if a % 10 = 0 then withoutZeros (a / 10) (i + 1) n else (a, i)

/-- A finite double in its shortest positional form. A minus sign is kept even on zero. -/
def render (x : Float) : List Char :=
  let b := Binary.ofFloat x
  let sign := if 0x8000000000000000 ≤ x.toBits then ['-'] else []
  if b.mantissa = 0 then sign ++ ['0']
  else
    let (a, i) := search b 17 1
    let (a, i) := withoutZeros a i 17
    sign ++ positional a i

end OrderBook.Decimal.Shortest

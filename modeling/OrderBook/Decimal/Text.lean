import OrderBook.Decimal.Arithmetic
import OrderBook.Text.Digits

/-!
The written form of a number and its reading. Writing shows exactly `scale` fraction digits. Reading
also takes underscores between digits, more fraction digits than fit (the rest is rounded away) and
an exponent.
-/

namespace OrderBook.Decimal

open OrderBook.Text

-- Powers are the ones that core defines.
attribute [local instance (high)] instPowNat

def render (d : Decimal) : List Char :=
  let whole := natural (d.mantissa / 10 ^ d.scale)
  let fraction := padded d.scale (d.mantissa % 10 ^ d.scale)
  (if d.negative then ['-'] else []) ++ whole ++ (if d.scale = 0 then [] else '.' :: fraction)

def toText (d : Decimal) : String := String.ofList d.render

/-- Drops trailing zeros from `m / 10 ^ s`. -/
def dropTrailingZeros (m : Nat) : Nat → Nat × Nat
  | 0 => (m, 0)
  | s + 1 => if m % 10 = 0 then dropTrailingZeros (m / 10) s else (m, s + 1)

theorem dropTrailingZeros_le (m s : Nat) :
    (dropTrailingZeros m s).1 ≤ m ∧ (dropTrailingZeros m s).2 ≤ s := by
  induction s generalizing m with
  | zero => exact ⟨Nat.le_refl _, Nat.le_refl _⟩
  | succ s ih =>
    have h := ih (m / 10)
    simp only [dropTrailingZeros]; split
    · exact ⟨Nat.le_trans h.1 (Nat.div_le_self _ _), Nat.le_succ_of_le h.2⟩
    · exact ⟨Nat.le_refl _, Nat.le_refl _⟩

/-- The shortest form of a value; zero has one form. -/
def normalize (d : Decimal) : Decimal :=
  if d.isZero then zero
  else
    have h := dropTrailingZeros_le d.mantissa d.scale
    ⟨d.negative, (dropTrailingZeros d.mantissa d.scale).1, (dropTrailingZeros d.mantissa d.scale).2,
      Nat.lt_of_le_of_lt h.1 d.mantissa_lt, Nat.le_trans h.2 d.scale_le⟩

/-- From here on a mantissa counts as long, and stays long. -/
def longFrom : Nat := (UInt64.size - 1) / 10 - 255

/-- A number as far as it has been read. -/
structure Reading where
  mantissa : Nat := 0
  scale : Nat := 0
  point : Bool := false
  digits : Bool := false
  long : Bool := false
  /-- Set once digits are dropped: whether the first of them rounds up. -/
  dropped : Option Bool := none

/-- No place is left behind the point. -/
def Reading.isFull (r : Reading) : Bool := r.point && 28 ≤ r.scale

/-- The digit in the last place no longer makes a mantissa long. -/
def Reading.append (r : Reading) (m : Nat) : Reading :=
  { r with
    mantissa := m
    scale := if r.point then r.scale + 1 else r.scale
    digits := true
    long := r.long || (longFrom ≤ m && (!r.point || r.scale < 27)) }

/-- A fraction digit without room is dropped, and then all that follow; a whole digit without room
is an error. -/
def Reading.digit (r : Reading) (d : Nat) : Option Reading :=
  let m := r.mantissa * 10 + d
  if r.dropped.isSome then some r
  else if m < mantissaLimit && !r.isFull then some (r.append m)
  else if r.point then some { r with dropped := some (5 ≤ d), digits := true }
  else none

/-- An underscore counts for nothing, but behind the last place of a mantissa that is not long it is
the first thing dropped, so that nothing is rounded up. -/
def Reading.underscore (r : Reading) : Option Reading :=
  if !r.digits then none
  else if r.isFull && !r.long && r.dropped.isNone then some { r with dropped := some false }
  else some r

def Reading.next (r : Reading) (c : Char) : Option Reading :=
  if c = '.' then if r.point then none else some { r with point := true }
  else if c = '_' then r.underscore
  else do r.digit (← digit? c)

/-- Rounding up may need one digit less. -/
def Reading.finish (r : Reading) (negative : Bool) : Option Decimal :=
  if !r.digits then none
  else if r.dropped = some true then
    if r.mantissa + 1 < mantissaLimit then mk? negative (r.mantissa + 1) r.scale
    else if r.scale = 0 then none
    else mk? negative ((r.mantissa + 1 + 4) / 10) (r.scale - 1)
  else mk? negative r.mantissa r.scale

def readUnsigned (negative : Bool) (cs : List Char) : Option Decimal := do
  (← cs.foldlM Reading.next {}).finish negative

def readPlain? : List Char → Option Decimal
  | '-' :: cs => readUnsigned true cs
  | '+' :: cs => readUnsigned false cs
  | cs => readUnsigned false cs

/-- Keeps `t` fraction digits, rounding half away from zero. -/
def roundTo (d : Decimal) (t : Nat) : Nat :=
  if d.scale ≤ t then d.mantissa * 10 ^ (t - d.scale)
  else
    let m := d.mantissa / 10 ^ (d.scale - t - 1)
    m / 10 + (if 5 ≤ m % 10 then 1 else 0)

/-- Moves the point `x` places to the left; what passes the last place is rounded away. -/
def shiftLeft? (d : Decimal) (x : Nat) : Option Decimal :=
  if 28 < x then none
  else if h : d.scale + x ≤ 28 then some { d with scale := d.scale + x, scale_le := h }
  else if h : d.roundTo (28 - x) < mantissaLimit then
    some ⟨d.negative, d.roundTo (28 - x), 28, h, Nat.le_refl _⟩
  else none

def powerOfTen? (x : Nat) : Option Decimal := mk? false (10 ^ x) 0

/-- Moves the point `x` places to the right. Past the last fraction digit this is a product, in
steps of at most nineteen places, without trailing zeros. -/
def shiftRight? (d : Decimal) (x : Nat) : Option Decimal :=
  if x ≤ d.scale then
    some { d with scale := d.scale - x, scale_le := Nat.le_trans (Nat.sub_le _ _) d.scale_le }
  else if 28 < x then none
  else do
    let y ← d.mul? (← powerOfTen? (min x 19))
    let z ← if x ≤ 19 then some y else y.mul? (← powerOfTen? (x - 19))
    some z.normalize

def isExponentMark (c : Char) : Bool := c == 'e' || c == 'E'

def readExponent (cs : List Char) : Option Nat := (readNatural UInt32.size cs).toOption

/-- A plain number, an `e` and an exponent. -/
def readScientific? (cs : List Char) : Option Decimal := do
  let base ← readPlain? (cs.takeWhile fun c => !isExponentMark c)
  match cs.dropWhile fun c => !isExponentMark c with
  | [] => none
  | _ :: '-' :: x => base.shiftLeft? (← readExponent x)
  | _ :: x => base.shiftRight? (← readExponent x)

def read? (cs : List Char) : Option Decimal := (readPlain? cs).or (readScientific? cs)

def ofText? (s : String) : Option Decimal := read? s.toList

end OrderBook.Decimal

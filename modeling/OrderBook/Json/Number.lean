import OrderBook.Decimal.Text
import OrderBook.Decimal.Shortest

/-!
Number literals. A literal without point and exponent is an integer as long as it fits in 64 bits;
every other literal stands for a double, of which the significand keeps as many leading digits as
fit in 64 bits and is scaled by one power of ten.
-/

namespace OrderBook.Json

open OrderBook.Text

-- Powers are the ones that core defines.
attribute [local instance (high)] instPowNat

inductive Number where
  | integer (negative : Bool) (magnitude : Nat)
  | real (negative : Bool) (whole : Nat) (fraction : List Nat) (exponent : Int)
deriving DecidableEq

namespace Number

def ofNat (n : Nat) : Number := .integer false n

def isDigit (c : Char) : Bool := (digit? c).isSome

def isSign (c : Char) : Bool := c == '+' || c == '-'

def digitsValue (cs : List Char) : Nat := cs.foldl (fun acc c => acc * 10 + (digit? c).getD 0) 0

/-- What may follow the fraction: nothing, or a mark, a sign if one likes, and digits. -/
def readExponent? : List Char → Option Int
  | [] => some 0
  | c :: cs =>
    let digits := cs.dropWhile isSign
    let signs := cs.takeWhile isSign
    if (c == 'e' || c == 'E') && !digits.isEmpty && digits.all isDigit && signs.length ≤ 1 then
      some (if signs = ['-'] then -(digitsValue digits : Int) else digitsValue digits)
    else none

def readUnsigned? (negative : Bool) (cs : List Char) : Option Number :=
  let whole := cs.takeWhile isDigit
  let rest := cs.dropWhile isDigit
  if whole.isEmpty || (whole.head? == some '0' && whole.length != 1) then none
  else
    match rest with
    | [] => some (.integer negative (digitsValue whole))
    | '.' :: rest =>
      let fraction := rest.takeWhile isDigit
      if fraction.isEmpty then none
      else
        (readExponent? (rest.dropWhile isDigit)).map
          (.real negative (digitsValue whole) (fraction.map fun c => (digit? c).getD 0))
    | rest => (readExponent? rest).map (.real negative (digitsValue whole) [])

/-- The whole of `cs` as a literal: no leading zeros, and digits on both sides of a point. -/
def read? : List Char → Option Number
  | '-' :: cs => readUnsigned? true cs
  | cs => readUnsigned? false cs

def render : Number → List Char
  | .integer negative n => (if negative then ['-'] else []) ++ natural n
  | .real negative whole fraction exponent =>
    (if negative then ['-'] else []) ++ natural whole
      ++ (if fraction.isEmpty then [] else '.' :: fraction.map digitChar)
      ++ 'e' :: (if exponent < 0 then ['-'] else []) ++ natural exponent.natAbs

/-- Appends digits to a significand as long as it stays below 2^64; the rest is only counted. -/
def extendSignificand (acc : Nat) : List Nat → Nat × Nat
  | [] => (acc, 0)
  | d :: ds =>
    if acc * 10 + d < UInt64.size then extendSignificand (acc * 10 + d) ds else (acc, ds.length + 1)

def digitsOf (n : Nat) : List Nat := (natural n).map fun c => (digit? c).getD 0

def tenTo (k : Nat) : Float := Float.ofScientific 1 false k

/-- Scales by a power of ten with one rounding; powers below the smallest table entry take a first
step of 308 places. Nothing stands for a number beyond all doubles. -/
def scale? (x : Float) (e : Int) : Option Float :=
  if h : e.natAbs ≤ 308 then
    if 0 ≤ e then
      let y := x * tenTo e.natAbs
      if y.isInf then none else some y
    else some (x / tenTo e.natAbs)
  else if x == 0 then some x
  else if 0 ≤ e then none
  else scale? (x / tenTo 308) (e + 308)
termination_by e.natAbs
decreasing_by omega

/-- The double a literal stands for, unless it is too large. -/
def double? (x : Number) : Option Float :=
  let (negative, whole, fraction, exponent) :=
    match x with
    | .integer negative n => (negative, n, [], 0)
    | .real negative whole fraction exponent => (negative, whole, fraction, exponent)
  let (m, unread) := extendSignificand 0 (digitsOf whole)
  let (m, unreadFraction) := extendSignificand m fraction
  let e := exponent + unread - (fraction.length - unreadFraction : Nat)
  (scale? (UInt64.ofNat m).toFloat e).map fun y => if negative then -y else y

/-- The literal as an integer: from -2^63 to 2^64 - 1, without point, exponent or negative zero. -/
def int? : Number → Option Int
  | .integer false n => if n < UInt64.size then some n else none
  | .integer true n => if 0 < n ∧ Int64.minValue.toInt ≤ -n then some (-n) else none
  | .real .. => none

def nat? (limit : Nat) (x : Number) : Option Nat :=
  match x with
  | .integer false n => if n < limit then some n else none
  | _ => none

/-- Whether the literal stands for any number at all. -/
def inRange (x : Number) : Bool := x.int?.isSome || x.double?.isSome

/-- Integers are taken exactly, other literals by the shortest form of their double. -/
def decimal? (x : Number) : Option Decimal :=
  match x.int? with
  | some n => Decimal.mk? (n < 0) n.natAbs 0
  | none => do Decimal.read? (Decimal.Shortest.render (← x.double?))

end Number

end OrderBook.Json

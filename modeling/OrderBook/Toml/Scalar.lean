import OrderBook.Text.Digits

/-!
Scalars of a settings file that are no strings: numbers, truth values, dates and times. Only integers
and truth values are kept; of the others it matters only that they are well formed.
-/

namespace OrderBook.Toml

open OrderBook.Text

-- Powers are the ones that core defines.
attribute [local instance (high)] instPowNat

inductive Scalar where
  | integer (n : Int)
  | bool (b : Bool)
  | float
  | dateTime
deriving DecidableEq, Repr

/-- The value of a digit in a base of at most 16. -/
def digitIn? (base : Nat) (c : Char) : Option Nat :=
  let v? :=
    if 'a' ≤ c ∧ c ≤ 'f' then some (c.toNat - 'a'.toNat + 10)
    else if 'A' ≤ c ∧ c ≤ 'F' then some (c.toNat - 'A'.toNat + 10)
    else digit? c
  v?.filter (· < base)

/-- Digits of which underscores may separate two. -/
def digitGroup? (base : Nat) : List Char → Option (List Nat)
  | [] => none
  | [c] => (digitIn? base c).map ([·])
  | c :: '_' :: cs => do return (← digitIn? base c) :: (← digitGroup? base cs)
  | c :: cs => do return (← digitIn? base c) :: (← digitGroup? base cs)

def valueOf (base : Nat) (digits : List Nat) : Nat := digits.foldl (fun acc d => acc * base + d) 0

/-- Decimal digits without a leading zero, unless zero is all there is. -/
def wholeDigits? (cs : List Char) : Option (List Nat) :=
  (digitGroup? 10 cs).filter fun ds => ds.length = 1 || ds.head? != some 0

def splitSign : List Char → Bool × List Char
  | '-' :: cs => (true, cs)
  | '+' :: cs => (false, cs)
  | cs => (false, cs)

/-- An integer of 64 bits with sign; only decimal ones may carry it. -/
def integer? (cs : List Char) : Option Int := do
  let n : Int ← match cs with
    | '0' :: 'x' :: cs => (digitGroup? 16 cs).map fun ds => (valueOf 16 ds : Int)
    | '0' :: 'o' :: cs => (digitGroup? 8 cs).map fun ds => (valueOf 8 ds : Int)
    | '0' :: 'b' :: cs => (digitGroup? 2 cs).map fun ds => (valueOf 2 ds : Int)
    | cs =>
      let (negative, cs) := splitSign cs
      (wholeDigits? cs).map fun ds => if negative then -(valueOf 10 ds : Int) else valueOf 10 ds
  if Int64.minValue.toInt ≤ n ∧ n ≤ Int64.maxValue.toInt then return n else none

/-- The first number that is no finite double: halfway past the largest one. -/
def doubleLimit : Nat := 1 <<< 1024 - 1 <<< 970

/-- Whether `m * 10 ^ e` lies beyond all doubles. -/
def isBeyondDoubles (m : Nat) (e : Int) : Bool :=
  let size := (natural m).length + e
  m != 0 && (310 < size || (300 < size && doubleLimit * 10 ^ (-e).toNat ≤ m * 10 ^ e.toNat))

def isExponentMark (c : Char) : Bool := c == 'e' || c == 'E'

/-- A fraction after the point. -/
def fraction? : List Char → Option (List Nat)
  | [] => some []
  | '.' :: cs => digitGroup? 10 cs
  | _ => none

def exponent? : List Char → Option Int
  | [] => some 0
  | _ :: cs =>
    let (negative, cs) := splitSign cs
    (digitGroup? 10 cs).map fun ds => if negative then -(valueOf 10 ds : Int) else valueOf 10 ds

/-- A number with a fraction or an exponent, and not beyond all doubles unless negative. -/
def isFloat (cs : List Char) : Bool :=
  let (negative, cs) := splitSign cs
  let number := cs.takeWhile fun c => !isExponentMark c
  let rest := cs.dropWhile fun c => !isExponentMark c
  let fraction := number.dropWhile (· != '.')
  if cs = ['i', 'n', 'f'] || cs = ['n', 'a', 'n'] then true
  else if fraction.isEmpty && rest.isEmpty then false
  else
    match wholeDigits? (number.takeWhile (· != '.')), fraction? fraction, exponent? rest with
    | some whole, some fraction, some e =>
      negative || !isBeyondDoubles (valueOf 10 (whole ++ fraction)) (e - fraction.length)
    | _, _, _ => false

/-! Dates and times -/

/-- Digits from the front, as a number. -/
def takeNumber? (places : Nat) (cs : List Char) : Option (Nat × List Char) :=
  if places ≤ cs.length then do
    let ds ← (cs.take places).mapM digit?
    return (valueOf 10 ds, cs.drop places)
  else none

def expect? (c : Char) : List Char → Option (List Char)
  | d :: cs => if c = d then some cs else none
  | [] => none

def isLeapYear (y : Nat) : Bool := y % 4 == 0 && (y % 100 != 0 || y % 400 == 0)

def daysIn (y m : Nat) : Nat :=
  if m = 2 then (if isLeapYear y then 29 else 28)
  else if m = 4 ∨ m = 6 ∨ m = 9 ∨ m = 11 then 30
  else 31

/-- A date, and what follows it. -/
def date? (cs : List Char) : Option (List Char) := do
  let (y, cs) ← takeNumber? 4 cs
  let (m, cs) ← takeNumber? 2 (← expect? '-' cs)
  let (d, cs) ← takeNumber? 2 (← expect? '-' cs)
  if 1 ≤ m ∧ m ≤ 12 ∧ 1 ≤ d ∧ d ≤ daysIn y m then return cs else none

/-- A time with seconds and perhaps a fraction, and what follows it. A minute may have a leap
second. -/
def time? (cs : List Char) : Option (List Char) := do
  let (h, cs) ← takeNumber? 2 cs
  let (m, cs) ← takeNumber? 2 (← expect? ':' cs)
  let (s, cs) ← takeNumber? 2 (← expect? ':' cs)
  if 23 < h ∨ 59 < m ∨ 60 < s then none
  match cs with
  | '.' :: rest =>
    let digits := rest.takeWhile fun c => (digit? c).isSome
    if digits.isEmpty then none else return rest.drop digits.length
  | cs => return cs

/-- An offset from universal time, or none, up to the end. -/
def isOffset : List Char → Bool
  | [] | ['Z'] | ['z'] => true
  | sign :: cs =>
    (sign == '+' || sign == '-') &&
      ((do
        let (h, cs) ← takeNumber? 2 cs
        let (m, cs) ← takeNumber? 2 (← expect? ':' cs)
        return h ≤ 23 && m ≤ 59 && cs.isEmpty : Option Bool).getD false)

def isTimeWithOffset (cs : List Char) : Bool := (time? cs).any isOffset

def isDate (cs : List Char) : Bool := (date? cs).any (·.isEmpty)

/-- A date, a time, or both with a `T` between them. -/
def isDateTime (cs : List Char) : Bool :=
  match date? cs with
  | some [] => true
  | some (c :: cs) => (c == 'T' || c == 't') && isTimeWithOffset cs
  | none => (time? cs).any (·.isEmpty)

def scalar? (cs : List Char) : Option Scalar :=
  if cs = ['t', 'r', 'u', 'e'] then some (.bool true)
  else if cs = ['f', 'a', 'l', 's', 'e'] then some (.bool false)
  else if isFloat cs then some .float
  else if isDateTime cs then some .dateTime
  else (integer? cs).map .integer

end OrderBook.Toml

/-!
Decimal digits: the value of a digit, natural numbers written without sign, and the reading of a
bounded natural number with its three ways to fail.
-/

namespace OrderBook.Text

def digit? (c : Char) : Option Nat :=
  if '0'.toNat ≤ c.toNat ∧ c.toNat ≤ '9'.toNat then some (c.toNat - '0'.toNat) else none

def digitChar (n : Nat) : Char := Char.ofNat ('0'.toNat + n % 10)

/-- The last `places` digits of `n`, with leading zeros. -/
def padded : Nat → Nat → List Char
  | 0, _ => []
  | places + 1, n => padded places (n / 10) ++ [digitChar n]

/-- The digits of `n` without leading zeros; zero is one digit. -/
def natural (n : Nat) : List Char := Nat.toDigits 10 n

def naturalText (n : Nat) : String := String.ofList (natural n)

theorem digit?_digitChar (n : Nat) : digit? (digitChar n) = some (n % 10) := by
  have h : ∀ k : Fin 10, digit? (Char.ofNat ('0'.toNat + k.val)) = some k.val := by decide
  exact h ⟨n % 10, Nat.mod_lt _ (by decide)⟩

/-- Why a text is no natural number below a limit. -/
inductive NaturalFault where
  | empty
  | invalidDigit
  | tooLarge
deriving DecidableEq, Repr

def NaturalFault.message : NaturalFault → String
  | .empty => "cannot parse integer from empty string"
  | .invalidDigit => "invalid digit found in string"
  | .tooLarge => "number too large to fit in target type"

/-- Digits from left to right; the first character that is no digit or that passes the limit ends
the reading. -/
def readDigits (limit acc : Nat) : List Char → Except NaturalFault Nat
  | [] => .ok acc
  | c :: cs =>
    match digit? c with
    | none => .error .invalidDigit
    | some d =>
      if acc * 10 + d < limit then readDigits limit (acc * 10 + d) cs else .error .tooLarge

/-- A number below `limit`, with a plus sign if one likes; a lone plus sign has no digit. -/
def readNatural (limit : Nat) : List Char → Except NaturalFault Nat
  | [] => .error .empty
  | ['+'] => .error .invalidDigit
  | '+' :: cs => readDigits limit 0 cs
  | cs => readDigits limit 0 cs

end OrderBook.Text

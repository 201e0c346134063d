/-!
Bytes as hexadecimal digits, two a byte. Writing uses lower case, reading takes both.
-/

namespace OrderBook.Hex

def digit (n : Nat) : Char := Nat.digitChar (n % 16)

def encodeByte (b : UInt8) : List Char := [digit (b.toNat / 16), digit b.toNat]

def encode (bytes : List UInt8) : List Char := bytes.flatMap encodeByte

def encodeText (bytes : List UInt8) : String := String.ofList (encode bytes)

/-- Why a text is no sequence of bytes. -/
inductive Fault where
  | oddLength
  /-- The first byte of the text that is no digit, and its place. -/
  | invalidDigit (byte : UInt8) (index : Nat)
deriving DecidableEq, Repr

def value? (b : UInt8) : Option UInt8 :=
  if 48 ≤ b ∧ b ≤ 57 then some (b - 48)
  else if 97 ≤ b ∧ b ≤ 102 then some (b - 87)
  else if 65 ≤ b ∧ b ≤ 70 then some (b - 55)
  else none

/-- Pairs of digits from place `index` on. -/
def decodePairs (index : Nat) : List UInt8 → Except Fault (List UInt8)
  | [] => .ok []
  | [_] => .error .oddLength
  | a :: b :: rest =>
    match value? a, value? b with
    | some x, some y => (decodePairs (index + 2) rest).map ((x * 16 + y) :: ·)
    | none, _ => .error (.invalidDigit a index)
    | _, none => .error (.invalidDigit b (index + 1))

/-- The length is looked at before any digit. -/
def decode (s : String) : Except Fault (List UInt8) :=
  let bytes := s.toUTF8.data.toList
  if bytes.length % 2 = 1 then .error .oddLength else decodePairs 0 bytes

end OrderBook.Hex

import OrderBook.Json.Read
import OrderBook.Json.Write
import OrderBook.Query.Json
import OrderBook.Text.Hex
import OrderBook.Text.Quoted

/-!
Cursors as opaque tokens: the compact JSON text of a cursor in hexadecimal digits.
-/

namespace OrderBook.Cursor

/-- Why a token is no cursor. -/
inductive Fault where
  | notHex (fault : Hex.Fault)
  | notCursor
deriving DecidableEq, Repr

namespace Fault

/-- A byte that is no digit is shown as the character of that code point. -/
def describe : Fault → String
  | .notHex .oddLength => "Odd number of digits"
  | .notHex (.invalidDigit byte index) =>
    "Invalid character " ++ Text.quoteChar (Char.ofNat byte.toNat) ++ " at position " ++ toString index
  | .notCursor => "not a cursor"

end Fault

def encode (c : Cursor) : String := Hex.encodeText c.toJson.toCompactText.toUTF8.data.toList

def decode (token : String) : Except Fault Cursor :=
  match Hex.decode token with
  | .error f => .error (.notHex f)
  | .ok bytes =>
    match (Json.ofBytes? bytes).bind ofJson? with
    | some c => .ok c
    | none => .error .notCursor

end OrderBook.Cursor

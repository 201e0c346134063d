import OrderBook.Text.Hidden

/-!
Text in quotes for messages. Characters that do not show by themselves are written by their code
point in braces, some controls by a letter.
-/

namespace OrderBook.Text

def hexDigits (n : Nat) : List Char := Nat.toDigits 16 n

/-- A character inside quotes; `mark` is the quote that surrounds the text. -/
def quotedChar (mark c : Char) : List Char :=
  if c = '\x00' then ['\\', '0']
  else if c = '\t' then ['\\', 't']
  else if c = '\r' then ['\\', 'r']
  else if c = '\n' then ['\\', 'n']
  else if c = '\\' || c = mark then ['\\', c]
  else if isHidden c then '\\' :: 'u' :: '\x7b' :: hexDigits c.toNat ++ ['\x7d']
  else [c]

/-- One character between apostrophes. -/
def quoteChar (c : Char) : String := String.ofList ('\x27' :: quotedChar '\x27' c ++ ['\x27'])

/-- A text between quotation marks. -/
def quoteText (s : String) : String :=
  String.ofList ('\x22' :: s.toList.flatMap (quotedChar '\x22') ++ ['\x22'])

/-- A list of quoted texts in brackets. -/
def quoteList (ss : List String) : String := "[" ++ String.intercalate ", " (ss.map quoteText) ++ "]"

end OrderBook.Text

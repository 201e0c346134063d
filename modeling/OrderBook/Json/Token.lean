import OrderBook.Json.Basic

/-!
The tokens of a JSON text. A text is scanned one character at a time; the state says which token
the character continues, so the scan of two texts in a row is the scan of one after the other. Bytes
that are no characters may stand in a string, which then denotes no text.
-/

namespace OrderBook.Json

inductive Token where
  | beginObject
  | endObject
  | beginArray
  | endArray
  | colon
  | comma
  | null
  | bool (b : Bool)
  | number (n : Number)
  | string (s : Literal)

/-- How far an escape inside a string has been read. -/
inductive Escape where
  | none
  | started
  | hex (digits value : Nat)

/-- A string so far: its characters in reverse, a high surrogate that waits for its partner, and
whether a surrogate stayed alone or a byte was no character. -/
structure StringScan where
  chars : List Char := []
  high : Option Nat := none
  broken : Bool := false
  escape : Escape := .none

/-- The token that the next character may continue; characters are kept in reverse. -/
inductive Mode where
  | between
  | word (cs : List Char)
  | number (cs : List Char)
  | string (s : StringScan)

structure Scan where
  tokens : List Token := []
  mode : Mode := .between

namespace StringScan

/-- A high surrogate without its partner leaves the string without a text. -/
def settle (s : StringScan) : StringScan :=
  if s.high.isSome then { s with high := none, broken := true } else s

def push (s : StringScan) (c : Char) : StringScan :=
  let s := s.settle
  { s with chars := c :: s.chars, escape := .none }

/-- Adds the code unit of a `\u` escape. Two surrogates, high then low, are one character. -/
def pushUnit (s : StringScan) (u : Nat) : StringScan :=
  if 0xD800 ≤ u ∧ u < 0xDC00 then { s.settle with high := some u, escape := .none }
  else if 0xDC00 ≤ u ∧ u < 0xE000 then
    match s.high with
    | some h =>
      { s with
        chars := Char.ofNat (0x10000 + (h - 0xD800) * 0x400 + (u - 0xDC00)) :: s.chars
        high := none
        escape := .none }
    | none => { s with broken := true, escape := .none }
  else s.push (Char.ofNat u)

def hexValue? (c : Char) : Option Nat :=
  if '0' ≤ c ∧ c ≤ '9' then some (c.toNat - '0'.toNat)
  else if 'a' ≤ c ∧ c ≤ 'f' then some (c.toNat - 'a'.toNat + 10)
  else if 'A' ≤ c ∧ c ≤ 'F' then some (c.toNat - 'A'.toNat + 10)
  else none

def escaped? : Char → Option Char
  | '\x22' => some '\x22'
  | '\\' => some '\\'
  | '/' => some '/'
  | 'b' => some '\x08'
  | 'f' => some '\x0c'
  | 'n' => some '\n'
  | 'r' => some '\r'
  | 't' => some '\t'
  | _ => none

def result (s : StringScan) : Literal :=
  if s.settle.broken then none else some (String.ofList s.chars.reverse)

end StringScan

def Token.ofWord? : List Char → Option Token
  | ['n', 'u', 'l', 'l'] => some .null
  | ['t', 'r', 'u', 'e'] => some (.bool true)
  | ['f', 'a', 'l', 's', 'e'] => some (.bool false)
  | _ => none

def isBlank (c : Char) : Bool := c == ' ' || c == '\n' || c == '\t' || c == '\r'

def isNumberChar (c : Char) : Bool :=
  Number.isDigit c || c == '-' || c == '+' || c == '.' || c == 'e' || c == 'E'

namespace Scan

def emit (s : Scan) (t : Token) : Scan := ⟨t :: s.tokens, .between⟩

/-- A character that starts a token or stands between two. -/
def start (s : Scan) (c : Char) : Option Scan :=
  match c with
  | '{' => some (s.emit .beginObject)
  | '}' => some (s.emit .endObject)
  | '[' => some (s.emit .beginArray)
  | ']' => some (s.emit .endArray)
  | ':' => some (s.emit .colon)
  | ',' => some (s.emit .comma)
  | '\x22' => some { s with mode := .string {} }
  | c =>
    if isBlank c then some { s with mode := .between }
    else if c == '-' || Number.isDigit c then some { s with mode := .number [c] }
    else if c.isLower then some { s with mode := .word [c] }
    else none

/-- Ends a word or a number; inside a string there is nothing to end. -/
def flush (s : Scan) : Option Scan :=
  match s.mode with
  | .between => some s
  | .word cs => (Token.ofWord? cs.reverse).map s.emit
  | .number cs => (Number.read? cs.reverse).map fun n => s.emit (.number n)
  | .string _ => none

def inString (s : Scan) (x : StringScan) (c : Char) : Option Scan :=
  match x.escape with
  | .started =>
    if c = 'u' then some { s with mode := .string { x with escape := .hex 0 0 } }
    else (StringScan.escaped? c).map fun d => { s with mode := .string (x.push d) }
  | .hex n v =>
    (StringScan.hexValue? c).map fun d =>
      let v := v * 16 + d
      { s with mode := .string (if n = 3 then x.pushUnit v else { x with escape := .hex (n + 1) v }) }
  | .none =>
    if c = '\x22' then some (s.emit (.string x.result))
    else if c = '\\' then some { s with mode := .string { x with escape := .started } }
    else if c.toNat < 0x20 then none
    else some { s with mode := .string (x.push c) }

def next (s : Scan) (c : Char) : Option Scan :=
  match s.mode with
  | .between => s.start c
  | .word cs =>
    if c.isLower then some { s with mode := .word (c :: cs) } else do (← s.flush).start c
  | .number cs =>
    if isNumberChar c then some { s with mode := .number (c :: cs) } else do (← s.flush).start c
  | .string x => s.inString x c

/-- A gap between characters breaks the string it stands in, and no other token has one. -/
def gap (s : Scan) : Option Scan :=
  match s.mode with
  | .string x =>
    if x.escape matches .none then some { s with mode := .string { x.settle with broken := true } }
    else none
  | _ => none

end Scan

def tokens? (cs : List Char) : Option (List Token) := do
  let s ← cs.foldlM Scan.next {}
  return (← s.flush).tokens.reverse

/-- The tokens of characters with gaps between them. -/
def tokensWithGaps? (cs : List (Option Char)) : Option (List Token) := do
  let s ← cs.foldlM (fun s c => c.elim s.gap s.next) ({} : Scan)
  return (← s.flush).tokens.reverse

theorem tokensWithGaps?_map_some (cs : List Char) : tokensWithGaps? (cs.map some) = tokens? cs := by
  simp [tokensWithGaps?, tokens?, List.foldlM_map]

end OrderBook.Json

import OrderBook.Toml.Scalar
import OrderBook.Toml.Text

/-!
Values of a settings file. Arrays and inline tables are checked but not kept: a settings file has no
use for their content.
-/

namespace OrderBook.Toml

inductive Value where
  | string (s : String)
  | scalar (x : Scalar)
  | array
  | inlineTable
deriving DecidableEq, Repr

/-- A comment up to the end of its line. -/
def skipComment : List Char → List Char
  | '#' :: cs => cs.dropWhile isPlain
  | cs => cs

/-- Spaces, comments and line breaks, of which there are at most `room`. -/
def skipBlank : (room : Nat) → List Char → List Char
  | 0, cs => cs
  | room + 1, cs =>
    match newline? (skipComment (skipSpace cs)) with
    | some rest => skipBlank room rest
    | none => skipSpace cs

def skipBlankLines (cs : List Char) : List Char := skipBlank (cs.length + 1) cs

def isScalarChar (c : Char) : Bool :=
  c.isAlphanum || c == '_' || c == '+' || c == '-' || c == '.' || c == ':'

/-- A scalar that is no string. A date and a time may have one space between them. -/
def scalarValue (cs : List Char) : Option (Value × List Char) :=
  let token := cs.takeWhile isScalarChar
  let rest := cs.dropWhile isScalarChar
  match scalar? token, rest with
  | some .dateTime, ' ' :: more =>
    let time := more.takeWhile isScalarChar
    if isDate token && isTimeWithOffset time then
      some (.scalar .dateTime, more.dropWhile isScalarChar)
    else some (.scalar .dateTime, rest)
  | some x, rest => some (.scalar x, rest)
  | none, _ => none

/-- The values of an array after its bracket, at most `room` of them. A comma may follow the last. -/
def arrayRest (value : List Char → Option (Value × List Char)) : (room : Nat) → List Char → Option (List Char)
  | 0, _ => none
  | room + 1, cs =>
    match skipBlankLines cs with
    | ']' :: cs => some cs
    | cs => do
      let (_, cs) ← value cs
      match skipBlankLines cs with
      | ',' :: cs => arrayRest value room cs
      | ']' :: cs => some cs
      | _ => none

/-- A table so far: paths that hold a value, and paths that are tables made by dotted keys. -/
structure DottedTable where
  values : List (List String) := []
  tables : List (List String) := []

namespace DottedTable

/-- The proper beginnings of a path, without the empty one. -/
def parents (path : List String) : List (List String) :=
  (List.range path.length).filterMap fun n => if n = 0 then none else some (path.take n)

/-- Adds a value. No path may hold two things, and a value has nothing below it. -/
def add? (t : DottedTable) (path : List String) : Option DottedTable :=
  if t.values.contains path || t.tables.contains path || (parents path).any t.values.contains then none
  else some { values := path :: t.values, tables := parents path ++ t.tables }

end DottedTable

/-- The fields of an inline table after its brace, at most `room` of them, all on one line. -/
def inlineTableRest (value : List Char → Option (Value × List Char)) :
    (room : Nat) → DottedTable → List Char → Option (List Char)
  | 0, _, _ => none
  | room + 1, t, cs => do
    let (path, cs) ← key cs
    let cs ← expect? '=' cs
    let (_, cs) ← value (skipSpace cs)
    let t ← t.add? path
    match skipSpace cs with
    | ',' :: cs => inlineTableRest value room t cs
    | '}' :: cs => some cs
    | _ => none

/-- A value that may hold others `depth` levels deep. -/
def value : (depth : Nat) → List Char → Option (Value × List Char)
  | _, '\x22' :: cs => (string ('\x22' :: cs)).map fun r => (.string (String.ofList r.1), r.2)
  | _, '\x27' :: cs => (string ('\x27' :: cs)).map fun r => (.string (String.ofList r.1), r.2)
  | depth + 1, '[' :: cs => (arrayRest (value depth) (cs.length + 1) cs).map (.array, ·)
  | depth + 1, '{' :: cs =>
    match skipSpace cs with
    | '}' :: cs => some (.inlineTable, cs)
    | cs => (inlineTableRest (value depth) (cs.length + 1) {} cs).map (.inlineTable, ·)
  | 0, '[' :: _ | 0, '{' :: _ => none
  | _, cs => scalarValue cs

end OrderBook.Toml

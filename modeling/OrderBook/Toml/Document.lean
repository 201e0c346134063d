import OrderBook.Toml.Value

/-!
A settings file as a whole: lines with a key and its value, and headers that open tables. A document
maps paths to what stands there, where an element of an array of tables is a path of its own.
-/

namespace OrderBook.Toml

inductive Segment where
  | key (s : String)
  | element (n : Nat)
deriving DecidableEq, Repr

abbrev Path := List Segment

inductive Entry where
  | value (v : Value)
  /-- A table that no header has opened is implicit, and dotted if keys with points made it. -/
  | table (implicit dotted : Bool)
  /-- An array of tables with so many elements. -/
  | tables (count : Nat)
deriving DecidableEq, Repr

structure Document where
  entries : List (Path × Entry) := []
  /-- The table that lines belong to. -/
  current : Path := []

namespace Document

def find? (d : Document) (p : Path) : Option Entry := d.entries.lookup p

/-- The latest entry of a path is the one that counts. -/
def set (d : Document) (p : Path) (e : Entry) : Document := { d with entries := (p, e) :: d.entries }

/-- Goes from a table down a path, making the tables on the way. Dotted keys only go through tables
that no header has opened; elements of arrays of tables are entered at the last one. -/
def descend (dotted : Bool) (d : Document) (p : Path) : List String → Option (Document × Path)
  | [] => some (d, p)
  | k :: ks =>
    let q := p ++ [.key k]
    match d.find? q with
    | none => descend dotted (d.set q (.table true dotted)) q ks
    | some (.value _) => none
    | some (.tables n) => descend dotted d (q ++ [.element (n - 1)]) ks
    | some (.table implicit _) => if dotted && !implicit then none else descend dotted d q ks

/-- Whether a table was made by dotted keys. -/
def isDotted (d : Document) (p : Path) : Bool :=
  match d.find? p with
  | some (.table _ dotted) => dotted
  | _ => false

/-- A line with a key and a value, in the current table. -/
def addValue? (d : Document) (key : List String) (v : Value) : Option Document := do
  let parents := key.dropLast
  let (d, p) ← d.descend true d.current parents
  let q := p ++ [.key (← key.getLast?)]
  if d.isDotted p = parents.isEmpty then none
  if (d.find? q).isSome then none
  return d.set q (.value v)

/-- A header that opens a table. A table is opened once. -/
def openTable? (d : Document) (key : List String) : Option Document := do
  let (d, p) ← d.descend false [] key.dropLast
  let q := p ++ [.key (← key.getLast?)]
  match d.find? q with
  | none | some (.table true false) => return { d.set q (.table false false) with current := q }
  | _ => none

/-- A header that opens the next element of an array of tables. -/
def openElement? (d : Document) (key : List String) : Option Document := do
  let (d, p) ← d.descend false [] key.dropLast
  let q := p ++ [.key (← key.getLast?)]
  match d.find? q with
  | none => return { d.set q (.tables 1) with current := q ++ [.element 0] }
  | some (.tables n) => return { d.set q (.tables (n + 1)) with current := q ++ [.element n] }
  | _ => none

/-- What the document says about a key of its top table. -/
def topLevel? (d : Document) (k : String) : Option Entry := d.find? [.key k]

end Document

/-- The rest of a line: spaces and a comment up to its end. -/
def lineEnd? (cs : List Char) : Option (List Char) :=
  match skipComment (skipSpace cs) with
  | [] => some []
  | cs => newline? cs

/-- One line that is not blank, and the text after it. -/
def line? (d : Document) : List Char → Option (Document × List Char)
  | '[' :: '[' :: cs => do
    let (k, cs) ← key cs
    let cs ← lineEnd? (← expect? ']' (← expect? ']' cs))
    return (← d.openElement? k, cs)
  | '[' :: cs => do
    let (k, cs) ← key cs
    let cs ← lineEnd? (← expect? ']' cs)
    return (← d.openTable? k, cs)
  | cs => do
    let (k, cs) ← key cs
    let (v, cs) ← value (depthLimit - 1) (skipSpace (← expect? '=' cs))
    let cs ← lineEnd? cs
    return (← d.addValue? k v, cs)

/-- Reads lines, of which there are at most `room`. -/
def lines? : (room : Nat) → Document → List Char → Option Document
  | 0, _, _ => none
  | room + 1, d, cs =>
    match skipComment (skipSpace cs) with
    | [] => some d
    | cs =>
      match newline? cs with
      | some cs => lines? room d cs
      | none => do
        let (d, cs) ← line? d cs
        lines? room d cs

/-- A whole text; a byte order mark in front does not count. -/
def Document.ofText? (s : String) : Option Document :=
  let cs := match s.toList with
    | '\ufeff' :: cs => cs
    | cs => cs
  lines? (cs.length + 1) {} cs

end OrderBook.Toml

import OrderBook.Json.Number

/-!
JSON values as they stand in a text: fields keep their order and repetitions, numbers their literal.
A string with an unpaired surrogate escape is a string of the syntax but denotes no text.
-/

namespace OrderBook

/-- The content of a string literal; nothing where its escapes denote no text. -/
abbrev Json.Literal := Option String

inductive Json where
  | null
  | bool (b : Bool)
  | number (n : Json.Number)
  | string (s : Json.Literal)
  | array (items : List Json)
  | object (fields : List (Json.Literal × Json))

namespace Json

instance : Inhabited Json := ⟨.null⟩

def text (s : String) : Json := .string (some s)

def nat (n : Nat) : Json := .number (.ofNat n)

def record (fields : List (String × Json)) : Json := .object (fields.map fun f => (some f.1, f.2))

def optional {α : Type} (toJson : α → Json) : Option α → Json
  | none => .null
  | some x => toJson x

mutual

/-- How deep arrays and objects are nested. -/
def depth : Json → Nat
  | .array items => depthOfItems items + 1
  | .object fields => depthOfFields fields + 1
  | _ => 0

def depthOfItems : List Json → Nat
  | [] => 0
  | x :: xs => max (depth x) (depthOfItems xs)

def depthOfFields : List (Literal × Json) → Nat
  | [] => 0
  | (_, x) :: xs => max (depth x) (depthOfFields xs)

end

mutual

/-- Every string denotes a text and every number a number. -/
def denotes : Json → Bool
  | .null | .bool _ => true
  | .number n => n.inRange
  | .string s => s.isSome
  | .array items => itemsDenote items
  | .object fields => fieldsDenote fields

def itemsDenote : List Json → Bool
  | [] => true
  | x :: xs => denotes x && itemsDenote xs

def fieldsDenote : List (Literal × Json) → Bool
  | [] => true
  | (k, x) :: xs => k.isSome && denotes x && fieldsDenote xs

end

/-- The deepest nesting a reader follows. -/
def maxDepth : Nat := 127

/-- A value that can be taken as a whole where it stands, inside `level` arrays and objects: it denotes
something and is not nested too deep. -/
def isSound (level : Nat) (x : Json) : Bool := x.denotes && level + x.depth ≤ maxDepth

mutual

/-- Of fields with one name only the last one is kept, everywhere. -/
def lastFieldsWin : Json → Json
  | .array items => .array (lastFieldsWinItems items)
  | .object fields => .object (lastFieldsWinFields fields)
  | x => x

def lastFieldsWinItems : List Json → List Json
  | [] => []
  | x :: xs => lastFieldsWin x :: lastFieldsWinItems xs

def lastFieldsWinFields : List (Literal × Json) → List (Literal × Json)
  | [] => []
  | (k, x) :: xs =>
    let rest := lastFieldsWinFields xs
    if rest.any (fun f => f.1 == k) then rest else (k, lastFieldsWin x) :: rest

end

/-- The value of the first field named `key`. -/
def field? (key : String) : Json → Option Json
  | .object fields => (fields.find? fun f => f.1 == some key).map (·.2)
  | _ => none

end Json

end OrderBook

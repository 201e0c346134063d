import OrderBook.Json.Token
import OrderBook.Text.Bytes

/-!
Reading a value from its tokens, one at a time, with the open arrays and objects on a stack. A text
holds one value and nothing else but blanks.
-/

namespace OrderBook.Json

/-- An array or object that is still open, its content in reverse; an object also keeps the name of
the field whose value comes next. -/
inductive Frame where
  | array (items : List Json)
  | object (fields : List (Literal × Json)) (name : Literal)

/-- What may come next. -/
inductive Expected where
  | value
  | valueOrEnd
  | name
  | nameOrEnd
  | colon
  | commaOrEnd
  | nothing (value : Json)

structure Reader where
  stack : List Frame
  expected : Expected

namespace Reader

/-- Hands a finished value to the innermost open frame. -/
def complete (stack : List Frame) (x : Json) : Reader :=
  match stack with
  | [] => ⟨[], .nothing x⟩
  | .array items :: rest => ⟨.array (x :: items) :: rest, .commaOrEnd⟩
  | .object fields name :: rest => ⟨.object ((name, x) :: fields) none :: rest, .commaOrEnd⟩

/-- The first token of a value. -/
def begin (stack : List Frame) : Token → Option Reader
  | .beginArray => some ⟨.array [] :: stack, .valueOrEnd⟩
  | .beginObject => some ⟨.object [] none :: stack, .nameOrEnd⟩
  | .null => some (complete stack .null)
  | .bool b => some (complete stack (.bool b))
  | .number n => some (complete stack (.number n))
  | .string s => some (complete stack (.string s))
  | _ => none

def close : List Frame → Token → Option Reader
  | .array items :: rest, .endArray => some (complete rest (.array items.reverse))
  | .object fields _ :: rest, .endObject => some (complete rest (.object fields.reverse))
  | _, _ => none

def named : List Frame → Token → Option Reader
  | .object fields _ :: rest, .string s => some ⟨.object fields s :: rest, .colon⟩
  | _, _ => none

def next (r : Reader) (t : Token) : Option Reader :=
  match r.expected with
  | .value => begin r.stack t
  | .valueOrEnd => (begin r.stack t).or (close r.stack t)
  | .name => named r.stack t
  | .nameOrEnd => (named r.stack t).or (close r.stack t)
  | .colon => match t with
    | .colon => some ⟨r.stack, .value⟩
    | _ => none
  | .commaOrEnd => match t, r.stack with
    | .comma, .array _ :: _ => some ⟨r.stack, .value⟩
    | .comma, .object _ _ :: _ => some ⟨r.stack, .name⟩
    | t, stack => close stack t
  | .nothing _ => none

end Reader

def ofTokens? (ts : List Token) : Option Json := do
  match (← ts.foldlM Reader.next ⟨[], .value⟩).expected with
  | .nothing x => some x
  | _ => none

def read? (cs : List Char) : Option Json := do ofTokens? (← tokens? cs)

def ofText? (s : String) : Option Json := read? s.toList

def ofBytes? (bytes : List UInt8) : Option Json := do
  ofTokens? (← tokensWithGaps? (Text.characters bytes))

theorem ofBytes?_toUTF8 (s : String) : ofBytes? s.toUTF8.data.toList = ofText? s := by
  rw [ofBytes?, Text.characters_toUTF8, tokensWithGaps?_map_some]
  rfl

end OrderBook.Json

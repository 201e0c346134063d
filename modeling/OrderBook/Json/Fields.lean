import OrderBook.Json.Basic

/-!
Decoding: scalars, lists, and records. A record is an object, in which unknown fields do not count and
known ones stand at most once, or an array of its fields in order, in which fields at the end may be
missing.
-/

namespace OrderBook.Json

def asText? : Json → Option String
  | .string s => s
  | _ => none

def asBool? : Json → Option Bool
  | .bool b => some b
  | _ => none

/-- A whole number below `limit`, written without point or exponent. -/
def asNat? (limit : Nat) : Json → Option Nat
  | .number n => n.nat? limit
  | _ => none

def asUInt32? (x : Json) : Option UInt32 := (x.asNat? UInt32.size).map UInt32.ofNat

def asUInt64? (x : Json) : Option UInt64 := (x.asNat? UInt64.size).map UInt64.ofNat

def ofUInt32 (n : UInt32) : Json := nat n.toNat

def ofUInt64 (n : UInt64) : Json := nat n.toNat

def asList? {α : Type} (decode : Json → Option α) : Json → Option (List α)
  | .array items => items.mapM decode
  | _ => none

def ofList {α : Type} (encode : α → Json) (xs : List α) : Json := .array (xs.map encode)

/-- A missing value is written as `null`. -/
def asOptional? {α : Type} (decode : Json → Option α) : Json → Option (Option α)
  | .null => some none
  | x => (decode x).map some

/-- A number is a text or a number literal. -/
def asDecimal? : Json → Option Decimal
  | .string s => s.bind Decimal.ofText?
  | .number n => n.decimal?
  | _ => none

def ofDecimal (d : Decimal) : Json := text d.toText

/-- One of several names, as a text or as an object with that name for `null`. -/
def asName? : Json → Option String
  | .string s => s
  | .object [(k, .null)] => k
  | _ => none

mutual

/-- Every name that stands for an empty object stands for `null` instead. -/
def nullUnderName : Json → Json
  | .object [(k, .object [])] => .object [(k, .null)]
  | .object fields => .object (nullUnderNameFields fields)
  | .array items => .array (nullUnderNameItems items)
  | x => x

def nullUnderNameItems : List Json → List Json
  | [] => []
  | x :: xs => nullUnderName x :: nullUnderNameItems xs

def nullUnderNameFields : List (Literal × Json) → List (Literal × Json)
  | [] => []
  | (k, x) :: xs => (k, nullUnderName x) :: nullUnderNameFields xs

end

/-- An object with one field. -/
def asSingleField? : Json → Option (String × Json)
  | .object [(some k, x)] => some (k, x)
  | _ => none

/-- The value at a key if it stands there once, and nothing if it does not stand there. -/
def once? (fields : List (Literal × Json)) (key : String) : Option (Option Json) :=
  match fields.filter fun f => f.1 == some key with
  | [] => some none
  | [f] => some (some f.2)
  | _ => none

/-- The values of a record under its field names, in order. -/
def fields? (names : List String) : Json → Option (List (Option Json))
  | .object fields => if fields.all (·.1.isSome) then names.mapM (once? fields) else none
  | .array items =>
    if items.length ≤ names.length then
      some (items.map some ++ List.replicate (names.length - items.length) none)
    else none
  | _ => none

def required {α : Type} (decode : Json → Option α) (field : Option Json) : Option α :=
  field.bind decode

def orElse {α : Type} (fallback : α) (decode : Json → Option α) : Option Json → Option α
  | none => some fallback
  | some x => decode x

end OrderBook.Json

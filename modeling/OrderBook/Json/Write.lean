import OrderBook.Json.Basic

/-!
The two text forms of a value: compact, and indented by two spaces a level. Characters from the
space on stand for themselves, apart from the quote and the backslash.
-/

namespace OrderBook.Json

def hexDigit (n : Nat) : Char := Nat.digitChar (n % 16)

def escape (c : Char) : List Char :=
  if c = '\x22' then ['\\', '\x22']
  else if c = '\\' then ['\\', '\\']
  else if c = '\x08' then ['\\', 'b']
  else if c = '\x0c' then ['\\', 'f']
  else if c = '\n' then ['\\', 'n']
  else if c = '\r' then ['\\', 'r']
  else if c = '\t' then ['\\', 't']
  else if c.toNat < 0x20 then ['\\', 'u', '0', '0', hexDigit (c.toNat / 16), hexDigit c.toNat]
  else [c]

/-- A literal without text is written as a lone surrogate escape. -/
def quote : Literal → List Char
  | some s => '\x22' :: s.toList.flatMap escape ++ ['\x22']
  | none => ['\x22', '\\', 'u', 'd', '8', '0', '0', '\x22']

mutual

def compact : Json → List Char
  | .null => ['n', 'u', 'l', 'l']
  | .bool true => ['t', 'r', 'u', 'e']
  | .bool false => ['f', 'a', 'l', 's', 'e']
  | .number n => n.render
  | .string s => quote s
  | .array [] => ['[', ']']
  | .array (x :: xs) => '[' :: compact x ++ compactItems xs ++ [']']
  | .object [] => ['{', '}']
  | .object ((k, x) :: xs) => '{' :: quote k ++ ':' :: compact x ++ compactFields xs ++ ['}']

def compactItems : List Json → List Char
  | [] => []
  | x :: xs => ',' :: compact x ++ compactItems xs

def compactFields : List (Literal × Json) → List Char
  | [] => []
  | (k, x) :: xs => ',' :: quote k ++ ':' :: compact x ++ compactFields xs

end

/-- A line break and the indentation of a level. -/
def newline (level : Nat) : List Char := '\n' :: List.replicate (2 * level) ' '

mutual

/-- Empty arrays and objects stay on one line. -/
def pretty (level : Nat) : Json → List Char
  | .null => ['n', 'u', 'l', 'l']
  | .bool true => ['t', 'r', 'u', 'e']
  | .bool false => ['f', 'a', 'l', 's', 'e']
  | .number n => n.render
  | .string s => quote s
  | .array [] => ['[', ']']
  | .array (x :: xs) =>
    '[' :: newline (level + 1) ++ pretty (level + 1) x ++ prettyItems (level + 1) xs
      ++ newline level ++ [']']
  | .object [] => ['{', '}']
  | .object ((k, x) :: xs) =>
    '{' :: newline (level + 1) ++ quote k ++ ':' :: ' ' :: pretty (level + 1) x
      ++ prettyFields (level + 1) xs ++ newline level ++ ['}']

def prettyItems (level : Nat) : List Json → List Char
  | [] => []
  | x :: xs => ',' :: newline level ++ pretty level x ++ prettyItems level xs

def prettyFields (level : Nat) : List (Literal × Json) → List Char
  | [] => []
  | (k, x) :: xs =>
    ',' :: newline level ++ quote k ++ ':' :: ' ' :: pretty level x ++ prettyFields level xs

end

def toCompactText (x : Json) : String := String.ofList x.compact

def toPrettyText (x : Json) : String := String.ofList (x.pretty 0)

end OrderBook.Json

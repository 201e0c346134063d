/-!
Strings and keys of a settings file. Basic strings know escapes, literal strings take everything as it
stands; both exist on one line and, between three quotes, on several. Each reader gives what it read
and the rest of the text.
-/

namespace OrderBook.Toml

def isSpace (c : Char) : Bool := c == ' ' || c == '\t'

def skipSpace (cs : List Char) : List Char := cs.dropWhile isSpace

/-- The characters after a line break. -/
def newline? : List Char → Option (List Char)
  | '\n' :: cs => some cs
  | '\r' :: '\n' :: cs => some cs
  | _ => none

/-- Characters that may stand in comments and strings: no controls but the tab. -/
def isPlain (c : Char) : Bool := c == '\t' || (0x20 ≤ c.toNat && c.toNat != 0x7F)

def hexValue? (c : Char) : Option Nat :=
  if '0' ≤ c ∧ c ≤ '9' then some (c.toNat - '0'.toNat)
  else if 'a' ≤ c ∧ c ≤ 'f' then some (c.toNat - 'a'.toNat + 10)
  else if 'A' ≤ c ∧ c ≤ 'F' then some (c.toNat - 'A'.toNat + 10)
  else none

/-- The character with a code point given in hexadecimal digits. -/
def codePoint? (digits : List Char) : Option Char := do
  let n ← digits.foldlM (fun acc c => return acc * 16 + (← hexValue? c)) 0
  if n.isValidChar then return Char.ofNat n else none

/-- The character after a backslash, with the digits that belong to it. -/
def escape : List Char → Option (Char × List Char)
  | 'b' :: cs => some ('\x08', cs)
  | 't' :: cs => some ('\t', cs)
  | 'n' :: cs => some ('\n', cs)
  | 'f' :: cs => some ('\x0c', cs)
  | 'r' :: cs => some ('\r', cs)
  | '\x22' :: cs => some ('\x22', cs)
  | '\\' :: cs => some ('\\', cs)
  | 'u' :: cs => if 4 ≤ cs.length then (codePoint? (cs.take 4)).map (·, cs.drop 4) else none
  | 'U' :: cs => if 8 ≤ cs.length then (codePoint? (cs.take 8)).map (·, cs.drop 8) else none
  | _ => none

/-- A basic string after its opening quote. No string has more characters than `room`. -/
def basicRest : (room : Nat) → List Char → Option (List Char × List Char)
  | 0, _ => none
  | _ + 1, [] => none
  | room + 1, c :: cs =>
    if c = '\x22' then some ([], cs)
    else if c = '\\' then do
      let (d, cs) ← escape cs
      let (ds, cs) ← basicRest room cs
      return (d :: ds, cs)
    else if isPlain c then do
      let (ds, cs) ← basicRest room cs
      return (c :: ds, cs)
    else none

/-- A literal string after its opening quote. -/
def literalRest : List Char → Option (List Char × List Char)
  | [] => none
  | c :: cs =>
    if c = '\x27' then some ([], cs)
    else if isPlain c then (literalRest cs).map fun r => (c :: r.1, r.2)
    else none

/-- Spaces and line breaks, of which there are at most `room`. -/
def skipLines : (room : Nat) → List Char → List Char
  | 0, cs => cs
  | room + 1, cs =>
    match newline? (skipSpace cs) with
    | some rest => skipLines room rest
    | none => skipSpace cs

/-- Three to five quotes end a string of several lines, and the first two of five belong to it. -/
def closing? (quote : Char) (cs : List Char) : Option (List Char × List Char) :=
  let quotes := (cs.takeWhile (· == quote)).length
  if 3 ≤ quotes then
    let kept := min (quotes - 3) 2
    some (List.replicate kept quote, cs.drop (kept + 3))
  else none

/-- A string of several lines after its opening quotes. A backslash at the end of a line joins it with
the next text. Line breaks are read as line feeds. -/
def linesRest (quote : Char) (escapes : Bool) : (room : Nat) → List Char → Option (List Char × List Char)
  | 0, _ => none
  | _ + 1, [] => none
  | room + 1, c :: cs =>
    match closing? quote (c :: cs), newline? (c :: cs) with
    | some (kept, rest), _ => some (kept, rest)
    | none, some rest => (linesRest quote escapes room rest).map fun r => ('\n' :: r.1, r.2)
    | none, none =>
      if escapes && c == '\\' then
        match newline? (skipSpace cs) with
        | some rest => linesRest quote escapes room (skipLines room rest)
        | none => do
          let (d, cs) ← escape cs
          let (ds, cs) ← linesRest quote escapes room cs
          return (d :: ds, cs)
      else if isPlain c then (linesRest quote escapes room cs).map fun r => (c :: r.1, r.2)
      else none

/-- A line break right after the opening quotes does not count. -/
def lines (quote : Char) (escapes : Bool) (cs : List Char) : Option (List Char × List Char) :=
  let body := (newline? cs).getD cs
  linesRest quote escapes (body.length + 1) body

/-- A string on one line. -/
def lineString : List Char → Option (List Char × List Char)
  | '\x22' :: cs => basicRest (cs.length + 1) cs
  | '\x27' :: cs => literalRest cs
  | _ => none

/-- A string of any kind. -/
def string : List Char → Option (List Char × List Char)
  | '\x22' :: '\x22' :: '\x22' :: cs => lines '\x22' true cs
  | '\x27' :: '\x27' :: '\x27' :: cs => lines '\x27' false cs
  | cs => lineString cs

def isBareKeyChar (c : Char) : Bool := c.isAlphanum || c == '_' || c == '-'

/-- One part of a key: bare, or a string on one line. -/
def keyPart (cs : List Char) : Option (String × List Char) :=
  let bare := cs.takeWhile isBareKeyChar
  if bare.isEmpty then (lineString cs).map fun r => (String.ofList r.1, r.2)
  else some (String.ofList bare, cs.dropWhile isBareKeyChar)

/-- The parts of a key, with points between them and spaces around; at most `room` parts. -/
def keyParts : (room : Nat) → List Char → Option (List String × List Char)
  | 0, _ => none
  | room + 1, cs => do
    let (part, cs) ← keyPart (skipSpace cs)
    match skipSpace cs with
    | '.' :: cs => do
      let (parts, cs) ← keyParts room cs
      return (part :: parts, cs)
    | cs => return ([part], cs)

/-- Keys and nested values are followed fewer than this many levels deep. -/
def depthLimit : Nat := 80

def key (cs : List Char) : Option (List String × List Char) := keyParts (depthLimit - 1) cs

end OrderBook.Toml

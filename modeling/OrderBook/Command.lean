import OrderBook.Text.Digits

/-!
The command line: the command to run and its options. An option stands anywhere, with its value as the
next argument or, for its long name, after an equals sign.
-/

namespace OrderBook

inductive Command where
  /-- Searches the matches of one order of a book at an instant, or now. -/
  | search (snapshot order : String) (now : Option UInt64)
  /-- Checks the settings. -/
  | validate
deriving DecidableEq, Repr

structure Invocation where
  command : Command
  config : Option String := none
  logLevel : Option String := none
deriving DecidableEq, Repr

/-- The options, each of which takes a value. -/
inductive Flag where
  | config
  | logLevel
  | snapshot
  | order
  | now
deriving DecidableEq, Repr

namespace Flag

def name : Flag → String
  | .config => "--config"
  | .logLevel => "--log-level"
  | .snapshot => "--snapshot"
  | .order => "--order"
  | .now => "--now"

def shortName? : Flag → Option String
  | .config => some "-c"
  | .snapshot => some "-s"
  | .order => some "-o"
  | .logLevel | .now => none

def all : List Flag := [.config, .logLevel, .snapshot, .order, .now]

def ofName? (s : String) : Option Flag := all.find? fun f => f.name == s || f.shortName? == some s

end Flag

inductive UsageFault where
  | unexpected (argument : String)
  | missingValue (flag : Flag)
  | missing (flag : Flag)
  | invalidInstant (value : String)
  | noCommand
deriving DecidableEq, Repr

namespace UsageFault

def message : UsageFault → String
  | .unexpected argument => "unexpected argument " ++ argument
  | .missingValue flag => "a value is required for " ++ flag.name
  | .missing flag => "the option " ++ flag.name ++ " is required"
  | .invalidInstant value => "invalid value " ++ value ++ " for " ++ Flag.now.name
  | .noCommand => "a command is required: match or validate"

end UsageFault

/-- What has been read of a command line; of repeated options the first one counts. -/
structure Arguments where
  command : Option String := none
  values : List (Flag × String) := []

namespace Arguments

def value? (a : Arguments) (f : Flag) : Option String := a.values.lookup f

def add (a : Arguments) (f : Flag) (value : String) : Arguments :=
  { a with values := a.values ++ [(f, value)] }

/-- The long name and the value of an argument with an equals sign. -/
def splitValue? (s : String) : Option (String × String) :=
  match s.toList.dropWhile (· != '=') with
  | [] => none
  | _ :: value => some (String.ofList (s.toList.takeWhile (· != '=')), String.ofList value)

/-- An argument that is no option name: an option with its value, or the command. -/
def word (a : Arguments) (s : String) : Except UsageFault Arguments :=
  match (splitValue? s).bind fun x => (Flag.ofName? x.1).map (·, x.2) with
  | some (f, value) => .ok (a.add f value)
  | none =>
    if a.command.isNone && (s == "match" || s == "validate") then .ok { a with command := some s }
    else .error (.unexpected s)

def read (a : Arguments) : List String → Except UsageFault Arguments
  | [] => .ok a
  | [s] =>
    match Flag.ofName? s with
    | some f => .error (.missingValue f)
    | none => a.word s
  | s :: t :: rest =>
    match Flag.ofName? s with
    | some f => (a.add f t).read rest
    | none => do (← a.word s).read (t :: rest)

def required (a : Arguments) (f : Flag) : Except UsageFault String :=
  match a.value? f with
  | some s => .ok s
  | none => .error (.missing f)

/-- An instant is a number of 64 bits. -/
def instant? (a : Arguments) : Except UsageFault (Option UInt64) :=
  match a.value? .now with
  | none => .ok none
  | some s =>
    match Text.readNatural UInt64.size s.toList with
    | .ok n => .ok (some (UInt64.ofNat n))
    | .error _ => .error (.invalidInstant s)

def commandOf (a : Arguments) : Except UsageFault Command :=
  match a.command with
  | some "match" => do return .search (← a.required .snapshot) (← a.required .order) (← a.instant?)
  | some _ => .ok .validate
  | none => .error .noCommand

end Arguments

def Invocation.ofArguments (args : List String) : Except UsageFault Invocation := do
  let a ← Arguments.read {} args
  return { command := ← a.commandOf, config := a.value? .config, logLevel := a.value? .logLevel }

end OrderBook

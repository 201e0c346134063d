import OrderBook.Text.Blank
import OrderBook.Text.Digits

/-!
Settings of the matcher: their defaults, overrides by named variables, and the conditions they have to
meet.
-/

namespace OrderBook

structure MatcherConfig where
  /-- Candidate items read at a time. -/
  pageSize : Nat := 500
  oneToManyEnabled : Bool := true
  logLevel : String := "info"
deriving DecidableEq

/-- Why a number or a flag of a variable is rejected, or the settings as a whole. -/
inductive ValidationFault where
  | pageSizeText (fault : Text.NaturalFault)
  | flagText
  | zeroPageSize
  | blankLogLevel
deriving DecidableEq, Repr

namespace ValidationFault

def describe : ValidationFault → String
  | .pageSizeText fault => "Invalid page size: " ++ fault.message
  | .flagText => "Invalid one-to-many flag: provided string was not \x60true\x60 or \x60false\x60"
  | .zeroPageSize => "page_size must be greater than zero"
  | .blankLogLevel => "log_level must not be empty"

end ValidationFault

inductive ConfigError where
  | fileNotFound (path : String)
  | unparsable
  | invalid (fault : ValidationFault)
  | unreadable
deriving DecidableEq, Repr

namespace ConfigError

def message : ConfigError → String
  | .fileNotFound path => "File not found: " ++ path
  | .unparsable => "Parse error: not a valid configuration"
  | .invalid fault => "Validation error: " ++ fault.describe
  | .unreadable => "IO error: not readable as text"

end ConfigError

namespace MatcherConfig

def validate (c : MatcherConfig) : Except ValidationFault Unit :=
  if c.pageSize = 0 then .error .zeroPageSize
  else if (Text.trim c.logLevel.toList).isEmpty then .error .blankLogLevel
  else .ok ()

/-- A page size is any 64-bit number. -/
def readPageSize (s : String) : Except ValidationFault Nat :=
  (Text.readNatural UInt64.size s.toList).mapError .pageSizeText

def readFlag : String → Except ValidationFault Bool
  | "true" => .ok true
  | "false" => .ok false
  | _ => .error .flagText

/-- The variables that settings are read from. -/
def variableNames : List String := ["PAGE_SIZE", "ONE_TO_MANY_ENABLED", "LOG_LEVEL"]

/-- Settings from variables, in the order page size, flag, log level. The first value that is rejected
ends it; what was set before stays. -/
def override (lookup : String → Option String) (c : MatcherConfig) :
    MatcherConfig × Except ValidationFault Unit :=
  match (lookup "PAGE_SIZE").mapM readPageSize with
  | .error f => (c, .error f)
  | .ok pageSize =>
    let c := { c with pageSize := pageSize.getD c.pageSize }
    match (lookup "ONE_TO_MANY_ENABLED").mapM readFlag with
    | .error f => (c, .error f)
    | .ok flag =>
      ({ c with
          oneToManyEnabled := flag.getD c.oneToManyEnabled
          logLevel := (lookup "LOG_LEVEL").getD c.logLevel }, .ok ())

/-- What variable names start with unless another prefix is given. -/
def defaultPrefix : String := "MATCHER_"

/-- A lookup of variables that all carry one prefix. -/
def withPrefix (lead : String) (lookup : String → Option String) (name : String) : Option String :=
  lookup (lead ++ name)

end MatcherConfig

end OrderBook

import OrderBook.Config.Basic
import OrderBook.Toml.Document

/-!
Settings from a file. Fields that the file leaves out keep their defaults, and what it says beyond them
does not count.
-/

namespace OrderBook.MatcherConfig

open Toml

/-- A field of the top table, or its default; the entry has to be a value of the right kind. -/
def field? {α : Type} (d : Document) (name : String) (fallback : α) (decode : Value → Option α) :
    Option α :=
  match d.topLevel? name with
  | none => some fallback
  | some (.value v) => decode v
  | some _ => none

def asNatural? : Value → Option Nat
  | .scalar (.integer n) => if 0 ≤ n then some n.toNat else none
  | _ => none

def asFlag? : Value → Option Bool
  | .scalar (.bool b) => some b
  | _ => none

def asString? : Value → Option String
  | .string s => some s
  | _ => none

def ofDocument? (d : Document) : Option MatcherConfig := do
  let defaults : MatcherConfig := {}
  return {
    pageSize := ← field? d "page_size" defaults.pageSize asNatural?
    oneToManyEnabled := ← field? d "one_to_many_enabled" defaults.oneToManyEnabled asFlag?
    logLevel := ← field? d "log_level" defaults.logLevel asString? }

def ofFileText (s : String) : Except ConfigError MatcherConfig :=
  match (Document.ofText? s).bind ofDocument? with
  | some c => .ok c
  | none => .error .unparsable

/-- The settings to work with: those of the file, or else the defaults, then the variables, and then
the check of the result. -/
def load (file : Option (Except ConfigError String)) (lookup : String → Option String) :
    Except ConfigError MatcherConfig := do
  let base ← match file with
    | none => pure {}
    | some content => ofFileText (← content)
  let (config, result) := base.override lookup
  result.mapError .invalid
  config.validate.mapError .invalid
  return config

end OrderBook.MatcherConfig

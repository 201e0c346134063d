import OrderBook.Command
import OrderBook.Config.File
import OrderBook.Json.Read
import OrderBook.Search.Json
import Std.Time.DateTime.Timestamp

/-!
Command line program: searches the matches of one order of a snapshot and prints the outcome, or checks
the settings. Notes and errors go to standard error.
-/

namespace OrderBook

def readText (path : String) : IO (Except ConfigError String) := do
  try
    return .ok (← IO.FS.readFile path)
  catch
    | .noFileOrDirectory .. => return .error (.fileNotFound path)
    | _ => return .error .unreadable

/-- The settings to work with, from a file if there is one and from the environment. -/
def loadConfig (path : Option String) : IO (Except ConfigError MatcherConfig) := do
  let file ← path.mapM readText
  let values ← MatcherConfig.variableNames.mapM fun name => do
    return (name, ← IO.getEnv (MatcherConfig.defaultPrefix ++ name))
  return MatcherConfig.load file fun name => (values.lookup name).join

/-- The present in unix milliseconds. -/
def currentMillis : IO UInt64 := do
  return UInt64.ofNat (← Std.Time.Timestamp.now).toMillisecondsSinceUnixEpoch.val.toNat

/-- Whether a log level shows notes. -/
def showsNotes (level : String) : Bool := ["info", "debug", "trace"].contains level

def fail (message : String) : IO UInt32 := do
  IO.eprintln ("Error: " ++ message)
  return 1

def runSearch (config : MatcherConfig) (path order : String) (now : Option UInt64) : IO UInt32 := do
  match ← readText path with
  | .error _ => fail ("Failed to read snapshot " ++ path)
  | .ok content =>
    let some snapshot := (Json.ofText? content).bind Snapshot.ofJson? | fail "Failed to parse snapshot"
    let now ← now.elim currentMillis pure
    let engine : Engine := { source := (Book.ofSnapshot snapshot).source, config }
    match (engine.search order now).1 with
    | .error e => fail ("Search failed for order " ++ order ++ ": " ++ e.message)
    | .ok outcome =>
      IO.println outcome.toPrettyText
      return 0

def runValidate (config : MatcherConfig) (level : String) : IO UInt32 := do
  if showsNotes level then
    IO.eprintln "Configuration is valid"
    IO.eprintln ("  Page size: " ++ Text.naturalText config.pageSize)
    IO.eprintln ("  One-to-many enabled: " ++ if config.oneToManyEnabled then "true" else "false")
    IO.eprintln ("  Log level: " ++ config.logLevel)
  return 0

def run (i : Invocation) : IO UInt32 := do
  match ← loadConfig i.config with
  | .error e => fail ("Failed to load configuration: " ++ e.message)
  | .ok config =>
    match i.command with
    | .search snapshot order now => runSearch config snapshot order now
    | .validate => runValidate config (i.logLevel.getD config.logLevel)

end OrderBook

def main (args : List String) : IO UInt32 := do
  match OrderBook.Invocation.ofArguments args with
  | .error fault =>
    IO.eprintln ("error: " ++ fault.message)
    return 2
  | .ok invocation => OrderBook.run invocation

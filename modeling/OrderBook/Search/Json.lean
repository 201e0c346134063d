import OrderBook.Json.Write
import OrderBook.Record.Json
import OrderBook.Search.Engine
import OrderBook.Store.Book

/-!
What the engine reads and gives in JSON: settings, snapshots of a book, and the outcome of a search.
-/

namespace OrderBook

open Json

namespace MatcherConfig

def toJson (c : MatcherConfig) : Json :=
  record [("page_size", nat c.pageSize), ("one_to_many_enabled", .bool c.oneToManyEnabled),
    ("log_level", text c.logLevel)]

/-- Missing fields take their defaults. -/
def ofJson? (x : Json) : Option MatcherConfig := do
  let [pageSize, oneToManyEnabled, logLevel] ←
    x.fields? ["page_size", "one_to_many_enabled", "log_level"] | none
  let d : MatcherConfig := {}
  return {
    pageSize := ← orElse d.pageSize (asNat? UInt64.size) pageSize
    oneToManyEnabled := ← orElse d.oneToManyEnabled asBool? oneToManyEnabled
    logLevel := ← orElse d.logLevel asText? logLevel }

end MatcherConfig

namespace Snapshot

def toJson (s : Snapshot) : Json := record [("orders", ofList ResolvedOrder.toJson s.orders)]

def ofJson? (x : Json) : Option Snapshot := do
  let [orders] ← x.fields? ["orders"] | none
  return ⟨← required (asList? ResolvedOrder.ofJson?) orders⟩

end Snapshot

namespace SearchOutcome

def toJson (o : SearchOutcome) : Json :=
  record [("matches", ofList OrderMatch.toJson o.orderMatches),
    ("requiresScan", ofList Order.toJson o.requiresScan)]

/-- A record stands inside two levels: the outcome and its list of records. -/
def ofJson? (x : Json) : Option SearchOutcome := do
  let [orderMatches, requiresScan] ← x.fields? ["matches", "requiresScan"] | none
  return ⟨← required (asList? (OrderMatch.ofJson? 2)) orderMatches,
    ← required (asList? Order.ofJson?) requiresScan⟩

/-- The form in which an outcome is printed. -/
def toPrettyText (o : SearchOutcome) : String := o.toJson.toPrettyText

end SearchOutcome

end OrderBook

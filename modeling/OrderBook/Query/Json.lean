import OrderBook.Order.Json
import OrderBook.Query.Basic

/-!
Filters, sort keys and cursors in JSON. A filter is an object with one field, named for what it looks
at.
-/

namespace OrderBook

open Json

namespace QueryFilter

def toJson : QueryFilter → Json
  | .chainId n => record [("chainId", ofUInt64 n)]
  | .side s => record [("side", s.toJson)]
  | .status s => record [("status", s.toJson)]
  | .collection address => record [("collection", text address)]
  | .tokenIdOrAny token => record [("tokenIdOrAny", text token)]
  | .complication address => record [("complication", text address)]
  | .currency address => record [("currency", text address)]
  | .endTimeAtLeast t => record [("endTimeAtLeast", ofUInt64 t)]

def ofJson? (x : Json) : Option QueryFilter := do
  match ← x.asSingleField? with
  | ("chainId", x) => return .chainId (← x.asUInt64?)
  | ("side", x) => return .side (← Side.ofJson? x)
  | ("status", x) => return .status (← OrderStatus.ofJson? x)
  | ("collection", x) => return .collection (← x.asText?)
  | ("tokenIdOrAny", x) => return .tokenIdOrAny (← x.asText?)
  | ("complication", x) => return .complication (← x.asText?)
  | ("currency", x) => return .currency (← x.asText?)
  | ("endTimeAtLeast", x) => return .endTimeAtLeast (← x.asUInt64?)
  | _ => none

end QueryFilter

namespace SortKey

def name : SortKey → String
  | .startTime => "startTime"
  | .itemId => "itemId"

def ofName? : String → Option SortKey
  | "startTime" => some .startTime
  | "itemId" => some .itemId
  | _ => none

def toJson (k : SortKey) : Json := text k.name

def ofJson? (x : Json) : Option SortKey := x.asName?.bind ofName?

end SortKey

namespace SortValue

def toJson : SortValue → Json
  | .time t => ofUInt64 t
  | .id s => text s

def ofJson? : Json → Option SortValue
  | .number n => (Json.number n).asUInt64?.map .time
  | .string s => s.map .id
  | _ => none

end SortValue

namespace Cursor

def toJson (c : Cursor) : Json :=
  record [("values", ofList SortValue.toJson c.values), ("itemId", text c.itemId)]

def ofJson? (x : Json) : Option Cursor := do
  let [values, itemId] ← x.fields? ["values", "itemId"] | none
  return ⟨← required (asList? SortValue.ofJson?) values, ← required asText? itemId⟩

end Cursor

namespace CandidateQuery

def toJson (q : CandidateQuery) : Json :=
  record [("filters", ofList QueryFilter.toJson q.filters), ("orderBy", ofList SortKey.toJson q.orderBy),
    ("limit", nat q.limit), ("startAfter", optional Cursor.toJson q.startAfter)]

end CandidateQuery

end OrderBook

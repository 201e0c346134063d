import OrderBook.Proofs.Json.Reading
import OrderBook.Proofs.Json.Records
import OrderBook.Proofs.Text.Hex
import OrderBook.Query.Token

/-!
Cursors as tokens. A cursor reads back from its token, whatever times and ids it holds, so a query goes
on from the token of an item as it does from the item.
-/

namespace OrderBook

namespace SortValue

theorem ofJson?_toJson (v : SortValue) : ofJson? v.toJson = some v := by
  cases v with
  | time t => exact congrArg (Option.map time) (Json.asUInt64?_ofUInt64 t)
  | id s => rfl

theorem isIntegral_toJson (v : SortValue) : v.toJson.isIntegral = true := by
  cases v with
  | time t => rfl
  | id s => rfl

end SortValue

namespace Cursor

theorem ofJson?_toJson (c : Cursor) : ofJson? c.toJson = some c := by
  have hfields : c.toJson.fields? ["values", "itemId"] =
      some [some (Json.ofList SortValue.toJson c.values), some (Json.text c.itemId)] :=
    Json.fields?_record rfl (by decide)
  have hvalues := Json.asList?_ofList SortValue.ofJson?_toJson c.values
  simp [ofJson?, hfields, Json.required, hvalues]

theorem isIntegral_toJson (c : Cursor) : c.toJson.isIntegral = true := by
  simp [toJson, SortValue.isIntegral_toJson]

theorem decode_encode (c : Cursor) : decode c.encode = .ok c := by
  have hread := Json.ofBytes?_toCompactText c.toJson c.isIntegral_toJson
  simp only [decode, encode, Hex.decode_encodeText, hread, Option.bind_some, ofJson?_toJson]

/-- Every cursor reads back from its token, and every query has one page behind an item and behind the
token of the item. -/
theorem decode_encode_resumes :
    (∀ c : Cursor, decode c.encode = .ok c) ∧
    ∀ (q : CandidateQuery) (item : OrderItem) (items : List OrderItem),
      ((decode (q.position item).encode).map fun c => (q.after c).apply items) =
        .ok ((q.after (q.position item)).apply items) := by
  refine ⟨decode_encode, fun q item items => ?_⟩
  rw [decode_encode]
  rfl

end Cursor

end OrderBook

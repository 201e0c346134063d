import OrderBook.Proofs.Json.Pretty
import OrderBook.Proofs.Order.Json
import OrderBook.Search.Json

/-!
Match records, outcomes of a search and snapshots of a book read back from their texts. A record carries
its kind in a field that no other field is named like, so it is taken out and the rest is the record;
that it is first taken as a whole changes nothing, since it is plain and not deep.
-/

namespace OrderBook

open Json

/-! Pairs and edges -/

def ItemPair.mapPrices (f : Decimal → Decimal) (p : ItemPair) : ItemPair :=
  ⟨p.orderItem.mapPrices f, p.opposingOrderItem.mapPrices f⟩

def ItemEdge.mapPrices (f : Decimal → Decimal) (e : ItemEdge) : ItemEdge :=
  { e with source := e.source.mapPrices f, target := e.target.mapPrices f }

namespace ItemPair

theorem ofJson?_toJson (p : ItemPair) : ofJson? p.toJson = some (p.mapPrices .unsignZero) := by
  have hfields : p.toJson.fields? ["orderItem", "opposingOrderItem"] =
      some [some p.orderItem.toJson, some p.opposingOrderItem.toJson] :=
    fields?_record rfl (by decide)
  exact bind_of_eq_some hfields <| bind_of_eq_some (OrderItem.ofJson?_toJson _) <|
    bind_of_eq_some (OrderItem.ofJson?_toJson _) rfl

theorem plain_toJson (p : ItemPair) : p.toJson.Plain 5 := by
  refine .record (n := 4) ?_ (by simp)
  simp [OrderItem.plain_toJson]

end ItemPair

namespace ItemEdge

theorem ofJson?_toJson (e : ItemEdge) : ofJson? e.toJson = some (e.mapPrices .unsignZero) := by
  have hfields : e.toJson.fields? ["from", "to", "numItems"] =
      some [some e.source.toJson, some e.target.toJson, some (ofUInt32 e.numItems)] :=
    fields?_record rfl (by decide)
  exact bind_of_eq_some hfields <| bind_of_eq_some (OrderItem.ofJson?_toJson _) <|
    bind_of_eq_some (OrderItem.ofJson?_toJson _) <| bind_of_eq_some (asUInt32?_ofUInt32 _) rfl

theorem plain_toJson (e : ItemEdge) : e.toJson.Plain 5 := by
  refine .record (n := 4) ?_ (by simp)
  simp [OrderItem.plain_toJson, Plain.ofUInt32]

end ItemEdge

/-! Records of either kind -/

def OneToOneMatch.mapPrices (f : Decimal → Decimal) (m : OneToOneMatch) : OneToOneMatch :=
  { m with
    order := m.order.mapPrices f
    opposingOrder := m.opposingOrder.mapPrices f
    pairs := m.pairs.map fun p => p.mapPrices f
    price := f m.price }

def OneToManyMatch.mapPrices (f : Decimal → Decimal) (m : OneToManyMatch) : OneToManyMatch :=
  { m with
    order := m.order.mapPrices f
    opposingOrders := m.opposingOrders.map fun o => o.mapPrices f
    edges := m.edges.map fun e => e.mapPrices f
    price := f m.price }

def OrderMatch.mapPrices (f : Decimal → Decimal) : OrderMatch → OrderMatch
  | .oneToOne m => .oneToOne (m.mapPrices f)
  | .oneToMany m => .oneToMany (m.mapPrices f)

namespace OneToOneMatch

theorem ofJson?_record (m : OneToOneMatch) :
    ofJson? (record m.jsonFields) = some (m.mapPrices .unsignZero) := by
  have hfields : (record m.jsonFields).fields?
      ["id", "order", "opposingOrder", "pairs", "price", "timestamp"] =
        some [some (text m.id), some m.order.toJson, some m.opposingOrder.toJson,
          some (ofList ItemPair.toJson m.pairs), some (ofDecimal m.price), some (ofUInt64 m.timestamp)] :=
    fields?_record rfl (by decide)
  have hpairs := asList?_ofList_map ItemPair.ofJson?_toJson m.pairs
  exact bind_of_eq_some hfields <| bind_of_eq_some (asText?_text _) <|
    bind_of_eq_some (Order.ofJson?_toJson _) <| bind_of_eq_some (Order.ofJson?_toJson _) <|
    bind_of_eq_some hpairs <| bind_of_eq_some (asDecimal?_ofDecimal _) <|
    bind_of_eq_some (asUInt64?_ofUInt64 _) rfl

theorem plain_jsonFields (m : OneToOneMatch) : ∀ f ∈ m.jsonFields, f.2.Plain 6 := by
  have horder := fun o : Order => o.plain_toJson.mono (m := 6) (by decide)
  have hpairs := Plain.ofList m.pairs fun p _ => p.plain_toJson
  simp [jsonFields, Plain.text, Plain.ofDecimal, Plain.ofUInt64, horder, hpairs]

end OneToOneMatch

namespace OneToManyMatch

theorem ofJson?_record (m : OneToManyMatch) :
    ofJson? (record m.jsonFields) = some (m.mapPrices .unsignZero) := by
  have hfields : (record m.jsonFields).fields?
      ["id", "order", "opposingOrders", "edges", "price", "timestamp"] =
        some [some (text m.id), some m.order.toJson, some (ofList Order.toJson m.opposingOrders),
          some (ofList ItemEdge.toJson m.edges), some (ofDecimal m.price), some (ofUInt64 m.timestamp)] :=
    fields?_record rfl (by decide)
  have horders := asList?_ofList_map Order.ofJson?_toJson m.opposingOrders
  have hedges := asList?_ofList_map ItemEdge.ofJson?_toJson m.edges
  exact bind_of_eq_some hfields <| bind_of_eq_some (asText?_text _) <|
    bind_of_eq_some (Order.ofJson?_toJson _) <| bind_of_eq_some horders <|
    bind_of_eq_some hedges <| bind_of_eq_some (asDecimal?_ofDecimal _) <|
    bind_of_eq_some (asUInt64?_ofUInt64 _) rfl

theorem plain_jsonFields (m : OneToManyMatch) : ∀ f ∈ m.jsonFields, f.2.Plain 6 := by
  have horder := m.order.plain_toJson.mono (m := 6) (by decide)
  have horders := (Plain.ofList m.opposingOrders fun o _ => o.plain_toJson).mono (m := 6) (by decide)
  have hedges := Plain.ofList m.edges fun e _ => e.plain_toJson
  simp [jsonFields, Plain.text, Plain.ofDecimal, Plain.ofUInt64, horder, horders, hedges]

end OneToManyMatch

namespace OrderMatch

/-- A record with its kind in front, where no field of the record is named like that of the kind. -/
def tagged (kind : String) (fields : List (String × Json)) : Json :=
  record (("type", text kind) :: fields)

theorem splitKind?_tagged {kind : String} {fields : List (String × Json)}
    (h : "type" ∉ fields.map (·.1)) :
    splitKind? (tagged kind fields) = some (kind, record fields) := by
  have hne : ∀ f ∈ fields, f.1 ≠ "type" := fun f hf heq => h (List.mem_map.2 ⟨f, hf, heq⟩)
  have hothers : (namedFields fields).filter (fun f => f.1 == some "type") = [] := by
    refine List.filter_eq_nil_iff.2 fun g hg hname => ?_
    obtain ⟨f, hf, rfl⟩ := List.mem_map.1 hg
    exact hne f hf (Option.some.inj (beq_iff_eq.1 hname))
  have hkept : (namedFields fields).filter (fun f => f.1 != some "type") = namedFields fields := by
    refine List.filter_eq_self.2 fun g hg => ?_
    obtain ⟨f, hf, rfl⟩ := List.mem_map.1 hg
    exact bne_iff_ne.2 fun heq => hne f hf (Option.some.inj heq)
  show splitKind? (.object ((some "type", text kind) :: namedFields fields)) = _
  simp [splitKind?, once?, hothers, hkept]
  rfl

theorem plain_tagged {kind : String} {fields : List (String × Json)} (h : ∀ f ∈ fields, f.2.Plain 6) :
    (tagged kind fields).Plain 7 := by
  refine .record (n := 6) (List.forall_mem_cons.2 ⟨.text kind, h⟩) fun f hf => ?_
  obtain ⟨rfl, -⟩ := List.cons.inj hf
  exact nofun

theorem guard_tagged {level : Nat} (hlevel : level + 7 ≤ maxDepth) {kind : String}
    {fields : List (String × Json)} (h : ∀ f ∈ fields, f.2.Plain 6) :
    (guard ((tagged kind fields).isSound level) : Option Unit) = some () :=
  if_pos ((plain_tagged h).isSound hlevel)

theorem splitKind?_nullUnderName {kind : String} {fields : List (String × Json)}
    (h : ∀ f ∈ fields, f.2.Plain 6) (htype : "type" ∉ fields.map (·.1)) :
    splitKind? (tagged kind fields).nullUnderName = some (kind, record fields) := by
  rw [(plain_tagged h).nullUnderName]
  exact splitKind?_tagged htype

theorem ofJson?_toJson (level : Nat) (hlevel : level + 7 ≤ maxDepth) (m : OrderMatch) :
    ofJson? level m.toJson = some (m.mapPrices .unsignZero) := by
  cases m with
  | oneToOne m =>
    have htype : "type" ∉ m.jsonFields.map (·.1) := by simp [OneToOneMatch.jsonFields]
    exact bind_of_eq_some (guard_tagged hlevel m.plain_jsonFields) <|
      bind_of_eq_some (splitKind?_nullUnderName m.plain_jsonFields htype) <|
      bind_of_eq_some m.ofJson?_record rfl
  | oneToMany m =>
    have htype : "type" ∉ m.jsonFields.map (·.1) := by simp [OneToManyMatch.jsonFields]
    exact bind_of_eq_some (guard_tagged hlevel m.plain_jsonFields) <|
      bind_of_eq_some (splitKind?_nullUnderName m.plain_jsonFields htype) <|
      bind_of_eq_some m.ofJson?_record rfl

theorem plain_toJson (m : OrderMatch) : m.toJson.Plain 7 := by
  cases m with
  | oneToOne m => exact plain_tagged m.plain_jsonFields
  | oneToMany m => exact plain_tagged m.plain_jsonFields

end OrderMatch

/-! Outcomes and snapshots -/

def SearchOutcome.mapPrices (f : Decimal → Decimal) (o : SearchOutcome) : SearchOutcome :=
  ⟨o.orderMatches.map fun m => m.mapPrices f, o.requiresScan.map fun r => r.mapPrices f⟩

def Snapshot.mapPrices (f : Decimal → Decimal) (s : Snapshot) : Snapshot :=
  ⟨s.orders.map fun r => r.mapPrices f⟩

namespace SearchOutcome

theorem ofJson?_toJson (o : SearchOutcome) : ofJson? o.toJson = some (o.mapPrices .unsignZero) := by
  have hfields : o.toJson.fields? ["matches", "requiresScan"] =
      some [some (ofList OrderMatch.toJson o.orderMatches), some (ofList Order.toJson o.requiresScan)] :=
    fields?_record rfl (by decide)
  have hmatches := asList?_ofList_map (OrderMatch.ofJson?_toJson 2 (by decide)) o.orderMatches
  have hscan := asList?_ofList_map Order.ofJson?_toJson o.requiresScan
  exact bind_of_eq_some hfields <| bind_of_eq_some hmatches <| bind_of_eq_some hscan rfl

theorem isIntegral_toJson (o : SearchOutcome) : o.toJson.isIntegral = true := by
  have hmatches := (Plain.ofList o.orderMatches fun m _ => m.plain_toJson).integral
  have hscan := (Plain.ofList o.requiresScan fun r _ => r.plain_toJson).integral
  rw [toJson, isIntegral_record]
  simp only [List.all_cons, hmatches, hscan, List.all_nil, Bool.and_self]

end SearchOutcome

namespace Snapshot

theorem ofJson?_toJson (s : Snapshot) : ofJson? s.toJson = some (s.mapPrices .unsignZero) := by
  have hfields : s.toJson.fields? ["orders"] = some [some (ofList ResolvedOrder.toJson s.orders)] :=
    fields?_record rfl (by decide)
  have horders := asList?_ofList_map ResolvedOrder.ofJson?_toJson s.orders
  exact bind_of_eq_some hfields <| bind_of_eq_some horders rfl

theorem isIntegral_toJson (s : Snapshot) : s.toJson.isIntegral = true := by
  have horders := (Plain.ofList s.orders fun r _ => r.plain_toJson).integral
  rw [toJson, isIntegral_record]
  simp only [List.all_cons, horders, List.all_nil, Bool.and_self]

end Snapshot

/-- Snapshots and outcomes read back from their texts, compact or indented, with everything in them: only
a price that is a negative zero comes back as the zero that it is equal to. -/
theorem texts_read_back :
    (∀ d : Decimal, d.unsignZero.SameValue d) ∧
    (∀ s : Snapshot,
      (ofText? s.toJson.toCompactText).bind Snapshot.ofJson? = some (s.mapPrices .unsignZero) ∧
      (ofText? s.toJson.toPrettyText).bind Snapshot.ofJson? = some (s.mapPrices .unsignZero)) ∧
    ∀ o : SearchOutcome,
      (ofText? o.toJson.toCompactText).bind SearchOutcome.ofJson? = some (o.mapPrices .unsignZero) ∧
      (ofText? o.toPrettyText).bind SearchOutcome.ofJson? = some (o.mapPrices .unsignZero) := by
  refine ⟨Decimal.sameValue_unsignZero, fun s => ⟨?_, ?_⟩, fun o => ⟨?_, ?_⟩⟩
  · rw [ofText?_toCompactText _ s.isIntegral_toJson]
    exact s.ofJson?_toJson
  · rw [ofText?_toPrettyText _ s.isIntegral_toJson]
    exact s.ofJson?_toJson
  · rw [ofText?_toCompactText _ o.isIntegral_toJson]
    exact o.ofJson?_toJson
  · rw [SearchOutcome.toPrettyText, ofText?_toPrettyText _ o.isIntegral_toJson]
    exact o.ofJson?_toJson

end OrderBook

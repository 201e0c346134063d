import OrderBook.Json.Read
import OrderBook.Proofs.Json.Scanning

/-!
Reading what was written. The reader takes the tokens of a value, wherever a value may stand, and
hands the value to the innermost open frame; so the compact text of a value reads as the value.
-/

namespace OrderBook.Json

inductive Expected.Open : Expected → Prop
  | value : Open .value
  | valueOrEnd : Open .valueOrEnd

namespace Reader

theorem next_eq_begin {stack : List Frame} {e : Expected} (he : e.Open) {t : Token} {r : Reader}
    (h : begin stack t = some r) : next ⟨stack, e⟩ t = some r := by
  cases he with
  | value => exact h
  | valueOrEnd => simp [next, h]

theorem foldlM_single {stack : List Frame} {e : Expected} (he : e.Open) {t : Token} {r : Reader}
    (h : begin stack t = some r) : [t].foldlM next ⟨stack, e⟩ = some r := by
  simp [next_eq_begin he h]

theorem foldlM_opened {stack : List Frame} {e : Expected} (he : e.Open) {t : Token} {r : Reader}
    (h : begin stack t = some r) (ts : List Token) :
    (t :: ts).foldlM next ⟨stack, e⟩ = ts.foldlM next r := by
  simp [next_eq_begin he h]

mutual

/-- The tokens of a value hand it to the innermost open frame. -/
theorem foldlM_tokens (x : Json) (stack : List Frame) {e : Expected} (he : e.Open) :
    x.tokens.foldlM next ⟨stack, e⟩ = some (complete stack x) := by
  match x with
  | .null => exact foldlM_single he rfl
  | .bool b => exact foldlM_single he rfl
  | .number n => exact foldlM_single he rfl
  | .string s => exact foldlM_single he rfl
  | .array [] => exact foldlM_opened he (t := .beginArray) rfl _
  | .array (x :: xs) =>
    have hclose : next ⟨.array (xs.reverse ++ [x]) :: stack, .commaOrEnd⟩ .endArray =
        some (complete stack (.array (x :: xs))) := by
      simp [next, close]
    refine (foldlM_opened he (t := .beginArray) rfl _).trans ?_
    simp [foldlM_tokens x _ .valueOrEnd, complete, foldlM_itemTokens xs, hclose]
  | .object [] => exact foldlM_opened he (t := .beginObject) rfl _
  | .object ((k, x) :: xs) =>
    have hname : next ⟨.object [] none :: stack, .nameOrEnd⟩ (.string k) =
        some ⟨.object [] k :: stack, .colon⟩ := rfl
    have hcolon : next ⟨.object [] k :: stack, .colon⟩ .colon =
        some ⟨.object [] k :: stack, .value⟩ := rfl
    have hclose : next ⟨.object (xs.reverse ++ [(k, x)]) none :: stack, .commaOrEnd⟩ .endObject =
        some (complete stack (.object ((k, x) :: xs))) := by
      simp [next, close]
    refine (foldlM_opened he (t := .beginObject) rfl _).trans ?_
    simp [hname, hcolon, foldlM_tokens x _ .value, complete, foldlM_fieldTokens xs, hclose]

theorem foldlM_itemTokens (xs items : List Json) (stack : List Frame) :
    (itemTokens xs).foldlM next ⟨.array items :: stack, .commaOrEnd⟩ =
      some ⟨.array (xs.reverse ++ items) :: stack, .commaOrEnd⟩ := by
  match xs with
  | [] => rfl
  | x :: xs =>
    have hcomma : next ⟨.array items :: stack, .commaOrEnd⟩ .comma =
        some ⟨.array items :: stack, .value⟩ := rfl
    simp [itemTokens, hcomma, foldlM_tokens x _ .value, complete, foldlM_itemTokens xs]

theorem foldlM_fieldTokens (xs fields : List (Literal × Json)) (stack : List Frame) :
    (fieldTokens xs).foldlM next ⟨.object fields none :: stack, .commaOrEnd⟩ =
      some ⟨.object (xs.reverse ++ fields) none :: stack, .commaOrEnd⟩ := by
  match xs with
  | [] => rfl
  | (k, x) :: xs =>
    have hcomma : next ⟨.object fields none :: stack, .commaOrEnd⟩ .comma =
        some ⟨.object fields none :: stack, .name⟩ := rfl
    have hname : next ⟨.object fields none :: stack, .name⟩ (.string k) =
        some ⟨.object fields k :: stack, .colon⟩ := rfl
    have hcolon : next ⟨.object fields k :: stack, .colon⟩ .colon =
        some ⟨.object fields k :: stack, .value⟩ := rfl
    simp [fieldTokens, hcomma, hname, hcolon, foldlM_tokens x _ .value, complete,
      foldlM_fieldTokens xs]

end

end Reader

theorem ofTokens?_tokens (x : Json) : ofTokens? x.tokens = some x := by
  rw [ofTokens?, Reader.foldlM_tokens x [] .value]
  rfl

theorem read?_compact (x : Json) (h : x.isIntegral = true) : read? x.compact = some x := by
  rw [read?, tokens?_compact x h]
  exact ofTokens?_tokens x

theorem ofText?_toCompactText (x : Json) (h : x.isIntegral = true) :
    ofText? x.toCompactText = some x := by
  rw [ofText?, toCompactText, String.toList_ofList]
  exact read?_compact x h

theorem ofBytes?_toCompactText (x : Json) (h : x.isIntegral = true) :
    ofBytes? x.toCompactText.toUTF8.data.toList = some x := by
  rw [ofBytes?_toUTF8]
  exact ofText?_toCompactText x h

end OrderBook.Json

import OrderBook.Json.Token
import OrderBook.Json.Write
import OrderBook.Proofs.Text.Digits

/-!
Scanning what was written. A value is written token by token, and the scan of its text finds these
tokens: a string from quote to quote, whatever its characters are, and a number or a word up to the
character behind it.
-/

namespace OrderBook.Json

mutual

def tokens : Json → List Token
  | .null => [.null]
  | .bool b => [.bool b]
  | .number n => [.number n]
  | .string s => [.string s]
  | .array [] => [.beginArray, .endArray]
  | .array (x :: xs) => .beginArray :: tokens x ++ itemTokens xs ++ [.endArray]
  | .object [] => [.beginObject, .endObject]
  | .object ((k, x) :: xs) =>
    .beginObject :: .string k :: .colon :: tokens x ++ fieldTokens xs ++ [.endObject]

def itemTokens : List Json → List Token
  | [] => []
  | x :: xs => .comma :: tokens x ++ itemTokens xs

def fieldTokens : List (Literal × Json) → List Token
  | [] => []
  | (k, x) :: xs => .comma :: .string k :: .colon :: tokens x ++ fieldTokens xs

end

mutual

def isIntegral : Json → Bool
  | .number (.integer ..) => true
  | .number (.real ..) => false
  | .null | .bool _ | .string _ => true
  | .array items => itemsIntegral items
  | .object fields => fieldsIntegral fields

def itemsIntegral : List Json → Bool
  | [] => true
  | x :: xs => isIntegral x && itemsIntegral xs

def fieldsIntegral : List (Literal × Json) → Bool
  | [] => true
  | (_, x) :: xs => isIntegral x && fieldsIntegral xs

end

namespace Scan

abbrev after (ts : List Token) : Scan := ⟨ts, .between⟩

/-- A scan in a string of which some characters are read, the latest first. -/
abbrev inside (ts : List Token) (cs : List Char) : Scan := ⟨ts, .string { chars := cs }⟩

/-- A scan that has come to the end of a token, though a word or a number is still open to more. -/
structure Ready (s : Scan) (ts : List Token) : Prop where
  flush : s.flush = some (after ts)
  next : ∀ c, isNumberChar c = false → c.isLower = false → s.next c = (after ts).start c

theorem ready_after (ts : List Token) : (after ts).Ready ts := ⟨rfl, fun _ _ _ => rfl⟩

/-! Strings -/

theorem hexValue?_hexDigit (n : Nat) : StringScan.hexValue? (hexDigit n) = some (n % 16) := by
  have hall : ∀ k : Fin 16, StringScan.hexValue? (Nat.digitChar k) = some k.val := by decide
  exact hall ⟨n % 16, Nat.mod_lt _ (by decide)⟩

/-- An escape of four digits below the surrogates stands for its character. -/
theorem foldlM_hexEscape (ts : List Token) (cs : List Char) {c : Char} (h : c.toNat < 0x20) :
    ['\\', 'u', '0', '0', hexDigit (c.toNat / 16), hexDigit c.toNat].foldlM Scan.next (inside ts cs) =
      some (inside ts (c :: cs)) := by
  have hhigh : Scan.next ⟨ts, .string ⟨cs, none, false, .hex 2 0⟩⟩ (hexDigit (c.toNat / 16)) =
      some ⟨ts, .string ⟨cs, none, false, .hex 3 (c.toNat / 16 % 16)⟩⟩ := by
    simp [Scan.next, inString, hexValue?_hexDigit]
  have hunit : c.toNat / 16 % 16 * 16 + c.toNat % 16 = c.toNat := by omega
  have hlow : Scan.next ⟨ts, .string ⟨cs, none, false, .hex 3 (c.toNat / 16 % 16)⟩⟩
      (hexDigit c.toNat) = some (inside ts (c :: cs)) := by
    simp only [Scan.next, inString, hexValue?_hexDigit, Option.map_some, hunit, if_true,
      StringScan.pushUnit]
    rw [if_neg (by omega), if_neg (by omega), Char.ofNat_toNat]
    rfl
  have hstart : ['\\', 'u', '0', '0'].foldlM Scan.next (inside ts cs) =
      some ⟨ts, .string ⟨cs, none, false, .hex 2 0⟩⟩ := rfl
  have hsplit : ['\\', 'u', '0', '0', hexDigit (c.toNat / 16), hexDigit c.toNat] =
      ['\\', 'u', '0', '0'] ++ [hexDigit (c.toNat / 16), hexDigit c.toNat] := rfl
  rw [hsplit, List.foldlM_append, hstart]
  simp [hhigh, hlow]

theorem foldlM_escape (ts : List Token) (cs : List Char) (c : Char) :
    (escape c).foldlM Scan.next (inside ts cs) = some (inside ts (c :: cs)) := by
  rw [escape]
  split_ifs with hquote hbackslash hback hfeed hline hreturn htab hcontrol
  · subst hquote; rfl
  · subst hbackslash; rfl
  · subst hback; rfl
  · subst hfeed; rfl
  · subst hline; rfl
  · subst hreturn; rfl
  · subst htab; rfl
  · exact foldlM_hexEscape ts cs hcontrol
  · simp [Scan.next, inString, hquote, hbackslash, hcontrol, StringScan.push, StringScan.settle]

theorem foldlM_flatMap_escape (ts : List Token) (s cs : List Char) :
    (s.flatMap escape).foldlM Scan.next (inside ts cs) = some (inside ts (s.reverse ++ cs)) := by
  induction s generalizing cs with
  | nil => rfl
  | cons c s ih =>
    rw [List.flatMap_cons, List.foldlM_append, foldlM_escape]
    simp [ih]

theorem foldlM_quote (ts : List Token) (s : Literal) :
    (quote s).foldlM Scan.next (after ts) = some (after (.string s :: ts)) := by
  cases s with
  | none => rfl
  | some s =>
    have hopen : Scan.next (after ts) '\x22' = some (inside ts []) := rfl
    have hclose : Scan.next (inside ts s.toList.reverse) '\x22' =
        some (after (.string (some (String.ofList s.toList.reverse.reverse)) :: ts)) := rfl
    rw [List.reverse_reverse, String.ofList_toList] at hclose
    simp [quote, hopen, foldlM_flatMap_escape, hclose]

/-! Numbers -/

theorem start_of_isDigit (ts : List Token) {c : Char} (h : Number.isDigit c = true) :
    (after ts).start c = some ⟨ts, .number [c]⟩ := by
  have hblank : isBlank c = false := by
    cases hb : isBlank c with
    | false => rfl
    | true =>
      simp only [isBlank, Bool.or_eq_true, beq_iff_eq] at hb
      rcases hb with ((rfl | rfl) | rfl) | rfl <;> cases h
  rw [start]
  · simp [hblank, h]
  all_goals
    rintro rfl
    cases h

theorem foldlM_digits (ts : List Token) {ds : List Char} (h : ∀ c ∈ ds, Number.isDigit c = true)
    (cs : List Char) :
    ds.foldlM Scan.next ⟨ts, .number cs⟩ = some ⟨ts, .number (ds.reverse ++ cs)⟩ := by
  induction ds generalizing cs with
  | nil => rfl
  | cons d ds ih =>
    have hd : isNumberChar d = true := by simp [isNumberChar, h d List.mem_cons_self]
    have hnext : Scan.next ⟨ts, .number cs⟩ d = some ⟨ts, .number (d :: cs)⟩ := by
      simp [Scan.next, hd]
    rw [List.foldlM_cons, hnext]
    simpa using ih (fun c hc => h c (List.mem_cons_of_mem _ hc)) (d :: cs)

theorem ready_number (ts : List Token) (n : Number) (h : Number.read? n.render = some n) :
    Ready ⟨ts, .number n.render.reverse⟩ (.number n :: ts) := by
  have hflush : flush ⟨ts, .number n.render.reverse⟩ = some (after (.number n :: ts)) := by
    simp [flush, h, emit]
  refine ⟨hflush, fun c hnumber _ => ?_⟩
  rw [Scan.next]
  simp only [hnumber, Bool.false_eq_true, if_false, hflush]
  rfl

theorem foldlM_render (ts : List Token) (negative : Bool) (n : Nat) :
    (Number.integer negative n).render.foldlM Scan.next (after ts) =
      some ⟨ts, .number (Number.integer negative n).render.reverse⟩ := by
  have hdigits : ∀ c ∈ Text.natural n, Number.isDigit c = true :=
    fun c => Number.isDigit_of_mem_natural
  cases negative with
  | true =>
    have hsign : Scan.next (after ts) '-' = some ⟨ts, .number ['-']⟩ := rfl
    simp [Number.render, hsign, foldlM_digits ts hdigits]
  | false =>
    obtain ⟨d, ds, hcons⟩ := List.exists_cons_of_ne_nil (Text.natural_ne_nil n)
    have hall := hcons ▸ hdigits
    have hstart : Scan.next (after ts) d = some ⟨ts, .number [d]⟩ :=
      start_of_isDigit ts (hall d List.mem_cons_self)
    have hrest := foldlM_digits ts (fun c hc => hall c (List.mem_cons_of_mem _ hc)) [d]
    simp [Number.render, hcons, hstart, hrest]

/-! Words -/

theorem ready_word {ts : List Token} {cs : List Char} {t : Token}
    (h : Token.ofWord? cs.reverse = some t) : Ready ⟨ts, .word cs⟩ (t :: ts) := by
  have hflush : flush ⟨ts, .word cs⟩ = some (after (t :: ts)) := by simp [flush, h, emit]
  refine ⟨hflush, fun c _ hlower => ?_⟩
  rw [Scan.next]
  simp only [hlower, Bool.false_eq_true, if_false, hflush]
  rfl

/-! Values -/

/-- A scan reads a text to the end of some tokens. -/
def Reads (s : Scan) (cs : List Char) (ts : List Token) : Prop :=
  ∃ u, cs.foldlM Scan.next s = some u ∧ u.Ready ts

theorem Reads.append {s : Scan} {cs ds : List Char} {ts us : List Token} (h : s.Reads cs ts)
    (g : ∀ u : Scan, u.Ready ts → u.Reads ds us) : s.Reads (cs ++ ds) us := by
  obtain ⟨u, hu, r⟩ := h
  obtain ⟨v, hv, q⟩ := g u r
  refine ⟨v, ?_, q⟩
  rw [List.foldlM_append, hu]
  exact hv

theorem Ready.reads_cons {s : Scan} {ts us : List Token} (r : s.Ready ts) {c : Char} {t : Token}
    {cs : List Char} (hc : (after ts).start c = some (after (t :: ts)))
    (hnumber : isNumberChar c = false) (hlower : c.isLower = false)
    (h : (after (t :: ts)).Reads cs us) : s.Reads (c :: cs) us := by
  obtain ⟨u, hu, q⟩ := h
  refine ⟨u, ?_, q⟩
  rw [List.foldlM_cons, r.next c hnumber hlower, hc]
  exact hu

theorem Ready.reads_close {s : Scan} {ts : List Token} (r : s.Ready ts) {c : Char} {t : Token}
    (hc : (after ts).start c = some (after (t :: ts))) (hnumber : isNumberChar c = false)
    (hlower : c.isLower = false) : s.Reads [c] (t :: ts) :=
  r.reads_cons hc hnumber hlower ⟨_, rfl, ready_after _⟩

theorem reads_word {ts : List Token} {cs ds : List Char} {t : Token}
    (h : cs.foldlM Scan.next (after ts) = some ⟨ts, .word ds⟩)
    (hword : Token.ofWord? ds.reverse = some t) : (after ts).Reads cs (t :: ts) :=
  ⟨_, h, ready_word hword⟩

theorem reads_quote (ts : List Token) (s : Literal) : (after ts).Reads (quote s) (.string s :: ts) :=
  ⟨_, foldlM_quote ts s, ready_after _⟩

mutual

/-- The scan of a value finds its tokens. -/
theorem reads_compact (x : Json) (h : x.isIntegral = true) (ts : List Token) :
    (after ts).Reads x.compact (x.tokens.reverse ++ ts) := by
  match x with
  | .null => exact reads_word rfl rfl
  | .bool true => exact reads_word rfl rfl
  | .bool false => exact reads_word rfl rfl
  | .number (.integer negative n) =>
    exact ⟨_, foldlM_render ts negative n, ready_number ts _ (Number.read?_render_integer negative n)⟩
  | .number (.real ..) => cases h
  | .string s => exact reads_quote ts s
  | .array [] => exact ⟨_, rfl, ready_after _⟩
  | .array (x :: xs) =>
    have hx : x.isIntegral = true ∧ itemsIntegral xs = true := Bool.and_eq_true_iff.1 h
    have hbody := (reads_compact x hx.1 (.beginArray :: ts)).append fun u r =>
      (reads_compactItems xs hx.2 r).append fun v q =>
        q.reads_close (c := ']') rfl rfl rfl
    simpa [compact, Json.tokens] using (ready_after ts).reads_cons (c := '[') rfl rfl rfl hbody
  | .object [] => exact ⟨_, rfl, ready_after _⟩
  | .object ((k, x) :: xs) =>
    have hx : x.isIntegral = true ∧ fieldsIntegral xs = true := Bool.and_eq_true_iff.1 h
    have hbody := (reads_quote (.beginObject :: ts) k).append fun u r =>
      r.reads_cons (c := ':') rfl rfl rfl <|
        (reads_compact x hx.1 (.colon :: .string k :: .beginObject :: ts)).append fun v q =>
          (reads_compactFields xs hx.2 q).append fun w p =>
            p.reads_close (c := '}') rfl rfl rfl
    simpa [compact, Json.tokens] using (ready_after ts).reads_cons (c := '{') rfl rfl rfl hbody

theorem reads_compactItems (xs : List Json) (h : itemsIntegral xs = true) {s : Scan}
    {ts : List Token} (r : s.Ready ts) :
    s.Reads (compactItems xs) ((itemTokens xs).reverse ++ ts) := by
  match xs with
  | [] => exact ⟨s, rfl, r⟩
  | x :: xs =>
    have hx : x.isIntegral = true ∧ itemsIntegral xs = true := Bool.and_eq_true_iff.1 h
    have hbody := (reads_compact x hx.1 (.comma :: ts)).append fun u q =>
      reads_compactItems xs hx.2 q
    simpa [compactItems, itemTokens] using r.reads_cons (c := ',') rfl rfl rfl hbody

theorem reads_compactFields (xs : List (Literal × Json)) (h : fieldsIntegral xs = true) {s : Scan}
    {ts : List Token} (r : s.Ready ts) :
    s.Reads (compactFields xs) ((fieldTokens xs).reverse ++ ts) := by
  match xs with
  | [] => exact ⟨s, rfl, r⟩
  | (k, x) :: xs =>
    have hx : x.isIntegral = true ∧ fieldsIntegral xs = true := Bool.and_eq_true_iff.1 h
    have hbody := (reads_quote (.comma :: ts) k).append fun u q =>
      q.reads_cons (c := ':') rfl rfl rfl <|
        (reads_compact x hx.1 (.colon :: .string k :: .comma :: ts)).append fun v p =>
          reads_compactFields xs hx.2 p
    simpa [compactFields, fieldTokens] using r.reads_cons (c := ',') rfl rfl rfl hbody

end

end Scan

theorem tokens?_compact (x : Json) (h : x.isIntegral = true) : tokens? x.compact = some x.tokens := by
  obtain ⟨s, hs, r⟩ := Scan.reads_compact x h []
  rw [tokens?, hs]
  simp [r.flush]

end OrderBook.Json

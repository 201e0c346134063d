import OrderBook.Proofs.Json.Reading

/-!
The indented text of a value. Line breaks and indentation stand between tokens only, where they are
blanks, so the scan finds the same tokens as in the compact text and the value is read back.
-/

namespace OrderBook.Json

namespace Scan

variable {s : Scan} {ts us : List Token} {cs : List Char}

theorem Ready.reads_blank (r : s.Ready ts) {c : Char} (hc : (after ts).start c = some (after ts))
    (hnumber : isNumberChar c = false) (hlower : c.isLower = false) (h : (after ts).Reads cs us) :
    s.Reads (c :: cs) us := by
  obtain ⟨u, hu, q⟩ := h
  refine ⟨u, ?_, q⟩
  rw [List.foldlM_cons, r.next c hnumber hlower, hc]
  exact hu

theorem Ready.reads_newline (r : s.Ready ts) (level : Nat) (h : (after ts).Reads cs us) :
    s.Reads (newline level ++ cs) us := by
  have hspaces : ∀ n, (after ts).Reads (List.replicate n ' ' ++ cs) us := by
    intro n
    induction n with
    | zero => exact h
    | succ n ih => exact (ready_after ts).reads_blank rfl rfl rfl ih
  exact r.reads_blank rfl rfl rfl (hspaces _)

theorem reads_newline (level : Nat) (h : (after ts).Reads cs us) :
    (after ts).Reads (newline level ++ cs) us :=
  (ready_after ts).reads_newline level h

theorem Ready.reads_lastLine (r : s.Ready ts) (level : Nat) {c : Char} {t : Token}
    (hc : (after ts).start c = some (after (t :: ts))) (hnumber : isNumberChar c = false)
    (hlower : c.isLower = false) : s.Reads (newline level ++ [c]) (t :: ts) :=
  r.reads_newline level ((ready_after ts).reads_close hc hnumber hlower)

mutual

/-- The scan of an indented value finds its tokens. -/
theorem reads_pretty (x : Json) (h : x.isIntegral = true) (level : Nat) (ts : List Token) :
    (after ts).Reads (x.pretty level) (x.tokens.reverse ++ ts) := by
  match x with
  | .null => exact reads_word rfl rfl
  | .bool true => exact reads_word rfl rfl
  | .bool false => exact reads_word rfl rfl
  | .number (.integer negative n) =>
    exact ⟨_, foldlM_render ts negative n, ready_number ts _ (Number.read?_render_integer negative n)⟩
  | .number (.real ..) => cases h
  | .string s => exact reads_quote ts s
  | .array [] => exact ⟨_, rfl, ready_after _⟩
  | .array (x :: xs) =>
    have hx : x.isIntegral = true ∧ itemsIntegral xs = true := Bool.and_eq_true_iff.1 h
    have hbody := reads_newline (level + 1) <|
      (reads_pretty x hx.1 (level + 1) (.beginArray :: ts)).append fun u r =>
        (reads_prettyItems xs hx.2 (level + 1) r).append fun v q =>
          q.reads_lastLine level (c := ']') rfl rfl rfl
    simpa [pretty, Json.tokens] using (ready_after ts).reads_cons (c := '[') rfl rfl rfl hbody
  | .object [] => exact ⟨_, rfl, ready_after _⟩
  | .object ((k, x) :: xs) =>
    have hx : x.isIntegral = true ∧ fieldsIntegral xs = true := Bool.and_eq_true_iff.1 h
    have hbody := reads_newline (level + 1) <|
      (reads_quote (.beginObject :: ts) k).append fun u r =>
        r.reads_cons (c := ':') rfl rfl rfl <|
          (ready_after (.colon :: .string k :: .beginObject :: ts)).reads_blank (c := ' ') rfl rfl rfl <|
            (reads_pretty x hx.1 (level + 1) (.colon :: .string k :: .beginObject :: ts)).append fun v q =>
              (reads_prettyFields xs hx.2 (level + 1) q).append fun w p =>
                p.reads_lastLine level (c := '}') rfl rfl rfl
    simpa [pretty, Json.tokens] using (ready_after ts).reads_cons (c := '{') rfl rfl rfl hbody

theorem reads_prettyItems (xs : List Json) (h : itemsIntegral xs = true) (level : Nat) {s : Scan}
    {ts : List Token} (r : s.Ready ts) :
    s.Reads (prettyItems level xs) ((itemTokens xs).reverse ++ ts) := by
  match xs with
  | [] => exact ⟨s, rfl, r⟩
  | x :: xs =>
    have hx : x.isIntegral = true ∧ itemsIntegral xs = true := Bool.and_eq_true_iff.1 h
    have hbody := reads_newline level <|
      (reads_pretty x hx.1 level (.comma :: ts)).append fun u q => reads_prettyItems xs hx.2 level q
    simpa [prettyItems, itemTokens] using r.reads_cons (c := ',') rfl rfl rfl hbody

theorem reads_prettyFields (xs : List (Literal × Json)) (h : fieldsIntegral xs = true) (level : Nat)
    {s : Scan} {ts : List Token} (r : s.Ready ts) :
    s.Reads (prettyFields level xs) ((fieldTokens xs).reverse ++ ts) := by
  match xs with
  | [] => exact ⟨s, rfl, r⟩
  | (k, x) :: xs =>
    have hx : x.isIntegral = true ∧ fieldsIntegral xs = true := Bool.and_eq_true_iff.1 h
    have hbody := reads_newline level <|
      (reads_quote (.comma :: ts) k).append fun u q =>
        q.reads_cons (c := ':') rfl rfl rfl <|
          (ready_after (.colon :: .string k :: .comma :: ts)).reads_blank (c := ' ') rfl rfl rfl <|
            (reads_pretty x hx.1 level (.colon :: .string k :: .comma :: ts)).append fun v p =>
              reads_prettyFields xs hx.2 level p
    simpa [prettyFields, fieldTokens] using r.reads_cons (c := ',') rfl rfl rfl hbody

end

end Scan

theorem ofText?_toPrettyText (x : Json) (h : x.isIntegral = true) :
    ofText? x.toPrettyText = some x := by
  obtain ⟨s, hs, r⟩ := Scan.reads_pretty x h 0 []
  have htokens : tokens? (x.pretty 0) = some x.tokens := by
    rw [tokens?, hs]
    simp [r.flush]
  rw [ofText?, toPrettyText, String.toList_ofList, read?, htokens]
  exact ofTokens?_tokens x

end OrderBook.Json

/-!
Bytes as characters in UTF-8, also where some of them are no characters. The bytes of a text are
its characters.
-/

namespace OrderBook.Text

/-- The characters from byte `i` on. A byte that belongs to no character stands for a gap. -/
def charactersFrom (bytes : ByteArray) (i : Nat) : List (Option Char) :=
  if i < bytes.size then
    match bytes.utf8DecodeChar? i with
    | some c => some c :: charactersFrom bytes (i + c.utf8Size)
    | none => none :: charactersFrom bytes (i + 1)
  else []
termination_by bytes.size - i
decreasing_by
  · have := c.utf8Size_pos; omega
  · omega

theorem charactersFrom_append (a : ByteArray) (cs : List Char) :
    charactersFrom (a ++ cs.utf8Encode) a.size = cs.map some := by
  induction cs generalizing a with
  | nil => rw [charactersFrom]; simp
  | cons c cs ih =>
    have hd : (a ++ (c :: cs).utf8Encode).utf8DecodeChar? a.size = some c := by
      rw [ByteArray.utf8DecodeChar?_eq_utf8DecodeChar?_extract, ByteArray.size_append]
      have := @ByteArray.extract_append_size_add a (c :: cs).utf8Encode 0 (c :: cs).utf8Encode.size
      simp only [Nat.add_zero] at this
      rw [this, ByteArray.extract_zero_size]
      exact List.utf8DecodeChar?_utf8Encode_cons
    have hlt : a.size < (a ++ (c :: cs).utf8Encode).size :=
      ByteArray.lt_size_of_isSome_utf8DecodeChar? (by simp [hd])
    have hs : (a ++ [c].utf8Encode).size = a.size + c.utf8Size := by
      simp [ByteArray.size_append, List.utf8Encode_singleton]
    rw [charactersFrom, if_pos hlt, hd]
    have := ih (a ++ [c].utf8Encode)
    rw [hs, ByteArray.append_assoc, ← List.utf8Encode_cons] at this
    simp [this]

def characters (bytes : List UInt8) : List (Option Char) := charactersFrom ⟨bytes.toArray⟩ 0

theorem characters_toUTF8 (s : String) : characters s.toUTF8.data.toList = s.toList.map some := by
  have := charactersFrom_append ByteArray.empty s.toList
  simpa [characters] using this

/-- The text of some bytes, if all of them are characters. -/
def ofBytes? (bytes : List UInt8) : Option String := String.fromUTF8? ⟨bytes.toArray⟩

end OrderBook.Text

import Mathlib.Data.List.Basic
import OrderBook.Text.Hex

/-!
Reading what was written in hexadecimal digits. The digits are characters of one byte each, and each
reads as the half byte that it was written for, so reading takes the bytes back pair by pair.
-/

namespace OrderBook.Hex

theorem value?_digit (n : Nat) : value? (digit n).val.toUInt8 = some (UInt8.ofNat (n % 16)) := by
  have h : ∀ k : Fin 16, value? (Nat.digitChar k).val.toUInt8 = some (UInt8.ofNat k) := by decide
  exact h ⟨n % 16, Nat.mod_lt _ (by decide)⟩

theorem utf8Size_digit (n : Nat) : (digit n).utf8Size = 1 := by
  have h : ∀ k : Fin 16, (Nat.digitChar k).utf8Size = 1 := by decide
  exact h ⟨n % 16, Nat.mod_lt _ (by decide)⟩

theorem toUTF8_ofList {cs : List Char} (h : ∀ c ∈ cs, c.utf8Size = 1) :
    (String.ofList cs).toUTF8.data.toList = cs.map fun c => c.val.toUInt8 := by
  have hbytes : cs.flatMap String.utf8EncodeChar = cs.map fun c => c.val.toUInt8 := by
    rw [List.map_eq_flatMap]
    exact List.flatMap_congr fun c hc => String.utf8EncodeChar_eq_singleton (h c hc)
  rw [← hbytes]
  simp [List.utf8Encode]

theorem halves_eq (b : UInt8) :
    UInt8.ofNat (b.toNat / 16 % 16) * 16 + UInt8.ofNat (b.toNat % 16) = b := by
  have hb := b.toNat_lt
  apply UInt8.toNat_inj.1
  simp only [UInt8.toNat_add, UInt8.toNat_mul, UInt8.toNat_ofNat', UInt8.toNat_ofNat]
  omega

theorem decodePairs_encode (bytes : List UInt8) (index : Nat) :
    decodePairs index ((encode bytes).map fun c => c.val.toUInt8) = .ok bytes := by
  induction bytes generalizing index with
  | nil => rfl
  | cons b bytes ih =>
    have hpair : (encode (b :: bytes)).map (fun c => c.val.toUInt8) =
        (digit (b.toNat / 16)).val.toUInt8 :: (digit b.toNat).val.toUInt8 ::
          (encode bytes).map fun c => c.val.toUInt8 := rfl
    rw [hpair, decodePairs, value?_digit, value?_digit]
    dsimp only
    rw [ih, halves_eq]
    rfl

theorem length_encode (bytes : List UInt8) : (encode bytes).length = 2 * bytes.length := by
  induction bytes with
  | nil => rfl
  | cons b bytes ih =>
    have hpair : (encode (b :: bytes)).length = (encode bytes).length + 2 := rfl
    rw [hpair, ih, List.length_cons]
    omega

theorem decode_encodeText (bytes : List UInt8) : decode (encodeText bytes) = .ok bytes := by
  have hsize : ∀ c ∈ encode bytes, c.utf8Size = 1 := by
    intro c hc
    obtain ⟨b, -, hc⟩ := List.mem_flatMap.1 hc
    rcases List.mem_pair.1 hc with rfl | rfl
    · exact utf8Size_digit _
    · exact utf8Size_digit _
  rw [decode, encodeText, toUTF8_ofList hsize]
  have heven : ¬ ((encode bytes).map fun c => c.val.toUInt8).length % 2 = 1 := by
    rw [List.length_map, length_encode]
    omega
  exact (if_neg heven).trans (decodePairs_encode bytes 0)

end OrderBook.Hex

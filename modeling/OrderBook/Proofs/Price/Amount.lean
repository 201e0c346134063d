import OrderBook.Price.Amount
import OrderBook.Proofs.Decimal.Normal
import OrderBook.Proofs.Decimal.Text

/-!
Amounts as texts. What is shown of an amount is the text of its normal form, so equal amounts look the
same and different ones differ. There is nothing to trim in it, and it reads as the amount unless that
is negative.
-/

namespace OrderBook

namespace Text

theorem isBlank_of_digit {c : Char} {k : Nat} (h : digit? c = some k) : isBlank c = false := by
  rw [digit?] at h
  split at h
  · rename_i hc
    have hlow : 48 ≤ c.toNat := hc.1
    have hhigh : c.toNat ≤ 57 := hc.2
    simp only [isBlank, blankRanges, List.any_cons, List.any_nil, Bool.or_false]
    simp
    omega
  · cases h

theorem exists_digit_of_mem_padded {places n : Nat} {c : Char} (h : c ∈ padded places n) :
    ∃ k, digit? c = some k := by
  induction places generalizing n with
  | zero => cases h
  | succ places ih =>
    rcases List.mem_append.1 h with h | h
    · exact ih h
    · exact ⟨n % 10, List.mem_singleton.1 h ▸ digit?_digitChar n⟩

theorem trim_eq_self {cs : List Char} (h : ∀ c ∈ cs, isBlank c = false) : trim cs = cs := by
  have hkept : ∀ ds : List Char, (∀ c ∈ ds, isBlank c = false) → ds.dropWhile isBlank = ds := by
    intro ds hds
    cases ds with
    | nil => rfl
    | cons d ds => rw [List.dropWhile_cons_of_neg (by simp [hds d List.mem_cons_self])]
  rw [trim, hkept cs h, hkept cs.reverse fun c hc => h c (List.mem_reverse.1 hc), List.reverse_reverse]

end Text

namespace Decimal

open Text

theorem isBlank_of_mem_render {d : Decimal} {c : Char} (h : c ∈ d.render) : isBlank c = false := by
  have hwhole : ∀ c ∈ natural (d.mantissa / 10 ^ d.scale), isBlank c = false := by
    intro c hc
    obtain ⟨k, hk, rfl⟩ := mem_natural hc
    exact isBlank_of_digit (digit?_eq hk)
  have hfraction : ∀ c ∈ padded d.scale (d.mantissa % 10 ^ d.scale), isBlank c = false := by
    intro c hc
    obtain ⟨k, hk⟩ := exists_digit_of_mem_padded hc
    exact isBlank_of_digit hk
  rw [render_eq, unsignedDigits] at h
  rcases List.mem_append.1 h with hsign | h
  · split at hsign
    · exact List.mem_singleton.1 hsign ▸ rfl
    · cases hsign
  · rcases List.mem_append.1 h with h | h
    · exact hwhole c h
    · split at h
      · cases h
      · rcases List.mem_cons.1 h with rfl | h
        · rfl
        · exact hfraction c h

theorem IsNormal.unsignZero_eq {d : Decimal} (h : d.IsNormal) : d.unsignZero = d := by
  have hsign : (d.negative && d.mantissa != 0) = d.negative := by
    cases hnegative : d.negative with
    | false => rfl
    | true =>
      have hm : d.mantissa ≠ 0 := fun hzero => by simp [h.unsigned hzero] at hnegative
      simp [hm]
  rw [unsignZero]
  simp only [hsign]

end Decimal

namespace Amount

open Decimal

theorem ofText?_format (d : Decimal) : ofText? (format d) = some d.normalize := by
  rw [format, ofText?_toText, (isNormal_normalize d).unsignZero_eq]

theorem parse?_format (d : Decimal) :
    parse? (format d) = if d.value < 0 then none else some d.normalize := by
  have htrim : Text.trim (format d).toList = (format d).toList := by
    rw [format, toText, String.toList_ofList]
    exact Text.trim_eq_self fun c => isBlank_of_mem_render
  have hread : read? (format d).toList = some d.normalize := ofText?_format d
  have hnegative := (isNormal_normalize d).negative_iff
  rw [value_normalize] at hnegative
  rw [parse?, htrim, hread]
  split
  · rename_i hlt
    simp [hnegative.2 hlt]
  · rename_i hle
    have hsign : d.normalize.negative = false := Bool.eq_false_iff.2 fun h => hle (hnegative.1 h)
    simp [hsign]

theorem format_eq_iff {a b : Decimal} : format a = format b ↔ a.value = b.value := by
  rw [← normalize_eq_iff]
  constructor
  · intro h
    have hread := ofText?_format a
    rw [h, ofText?_format b] at hread
    exact (Option.some.inj hread).symm
  · intro h
    rw [format, h, format]

/-- Amounts have one text each, and it reads as the amount unless that is negative. -/
theorem texts_canonical :
    (∀ d : Decimal, parse? (format d) = if d.value < 0 then none else some d.normalize) ∧
    (∀ d : Decimal, d.normalize.value = d.value) ∧
    ∀ a b : Decimal, format a = format b ↔ a.value = b.value :=
  ⟨parse?_format, value_normalize, fun _ _ => format_eq_iff⟩

/-- A zero with places and a sign. -/
example : format ⟨true, 0, 28, by decide, by decide⟩ = "0" := by decide

/-- The largest mantissa at the largest scale. -/
example : format ⟨false, mantissaLimit - 1, 28, by decide, by decide⟩ =
    "7.9228162514264337593543950335" := by decide +kernel

end Amount

end OrderBook

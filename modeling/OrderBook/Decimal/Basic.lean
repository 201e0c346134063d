/-!
Fixed-point numbers: a sign, a mantissa below 2^96 and a scale of at most 28 fraction digits.
Two numbers of different scales may have one value, so order and equality of value are defined by
cross multiplication and never look at the scale alone.
-/

namespace OrderBook

-- Powers are the ones that core defines.
attribute [local instance (high)] instPowNat

/-- Mantissas have 96 bits. -/
def Decimal.mantissaLimit : Nat := 0x1000000000000000000000000

structure Decimal where
  negative : Bool
  mantissa : Nat
  scale : Nat
  mantissa_lt : mantissa < Decimal.mantissaLimit
  scale_le : scale ≤ 28
deriving DecidableEq

namespace Decimal

/-- The mantissa with its sign: the value is `coefficient / 10 ^ scale`. -/
def coefficient (d : Decimal) : Int :=
  if d.negative then -d.mantissa else d.mantissa

/-- The number denoted. -/
def value (d : Decimal) : Rat :=
  mkRat d.coefficient (10 ^ d.scale)

/-- A zero is never negative, whatever sign is asked for. -/
def mk? (negative : Bool) (mantissa scale : Nat) : Option Decimal :=
  if h : mantissa < mantissaLimit ∧ scale ≤ 28 then
    some ⟨negative && mantissa != 0, mantissa, scale, h.1, h.2⟩
  else none

theorem scale_zero_le : 0 ≤ 28 := by decide

def zero : Decimal := ⟨false, 0, 0, by decide, scale_zero_le⟩

def one : Decimal := ⟨false, 1, 0, by decide, scale_zero_le⟩

instance : Inhabited Decimal := ⟨zero⟩

def ofUInt64 (n : UInt64) : Decimal :=
  ⟨false, n.toNat, 0, by have := n.toNat_lt; unfold mantissaLimit; omega, scale_zero_le⟩

def ofUInt32 (n : UInt32) : Decimal :=
  ⟨false, n.toNat, 0, by have := n.toNat_lt; unfold mantissaLimit; omega, scale_zero_le⟩

def isZero (d : Decimal) : Bool := d.mantissa == 0

/-- The same digits with the other sign; zero stays as it is. -/
def neg (d : Decimal) : Decimal :=
  if d.isZero then d else { d with negative := !d.negative }

/-- Both coefficients carried to one common scale. -/
def aligned (a b : Decimal) : Int × Int :=
  (a.coefficient * 10 ^ b.scale, b.coefficient * 10 ^ a.scale)

instance : LE Decimal := ⟨fun a b => (aligned a b).1 ≤ (aligned a b).2⟩

instance : LT Decimal := ⟨fun a b => (aligned a b).1 < (aligned a b).2⟩

instance (a b : Decimal) : Decidable (a ≤ b) :=
  inferInstanceAs (Decidable ((aligned a b).1 ≤ (aligned a b).2))

instance (a b : Decimal) : Decidable (a < b) :=
  inferInstanceAs (Decidable ((aligned a b).1 < (aligned a b).2))

/-- Equality of value: `1.50` and `1.5` are the same amount. -/
def SameValue (a b : Decimal) : Prop := (aligned a b).1 = (aligned a b).2

instance (a b : Decimal) : Decidable (SameValue a b) :=
  inferInstanceAs (Decidable ((aligned a b).1 = (aligned a b).2))

/-- Of two equal values the first is kept, with its scale. -/
instance : Max Decimal := ⟨fun a b => if a < b then b else a⟩

theorem coefficient_zero : zero.coefficient = 0 := rfl

theorem le_def (a b : Decimal) :
    a ≤ b ↔ a.coefficient * 10 ^ b.scale ≤ b.coefficient * 10 ^ a.scale := Iff.rfl

theorem lt_def (a b : Decimal) :
    a < b ↔ a.coefficient * 10 ^ b.scale < b.coefficient * 10 ^ a.scale := Iff.rfl

theorem not_lt {a b : Decimal} : ¬ a < b ↔ b ≤ a := by
  rw [lt_def, le_def]; omega

theorem not_le {a b : Decimal} : ¬ a ≤ b ↔ b < a := by
  rw [lt_def, le_def]; omega

theorem le_refl (a : Decimal) : a ≤ a := Int.le_refl _

theorem le_total (a b : Decimal) : a ≤ b ∨ b ≤ a := by
  rw [le_def, le_def]; omega

theorem le_max_left (a b : Decimal) : a ≤ max a b := by
  by_cases h : a < b
  · simpa [max, h] using (le_total a b).resolve_right fun g => not_lt.2 g h
  · simpa [max, h] using le_refl a

theorem le_max_right (a b : Decimal) : b ≤ max a b := by
  by_cases h : a < b
  · simpa [max, h] using le_refl b
  · simpa [max, h] using not_lt.1 h

theorem isZero_neg (d : Decimal) : d.neg.isZero = d.isZero := by
  unfold neg; split <;> rfl

end Decimal

end OrderBook

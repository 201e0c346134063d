import OrderBook.Decimal.Basic

/-!
The whole numbers around a value. A whole result has scale 0, and a value of scale 0 is its own.
-/

namespace OrderBook.Decimal

-- Powers are the ones that core defines.
attribute [local instance (high)] instPowNat

/-- The digits before the point. -/
def wholePart (d : Decimal) : Nat := d.mantissa / 10 ^ d.scale

def isWhole (d : Decimal) : Bool := d.mantissa % 10 ^ d.scale == 0

theorem wholePart_lt (d : Decimal) : d.wholePart < mantissaLimit :=
  Nat.lt_of_le_of_lt (Nat.div_le_self _ _) d.mantissa_lt

/-- A value with fraction digits leaves room for the next whole number. -/
theorem wholePart_succ_lt {d : Decimal} (h : d.scale ≠ 0) : d.wholePart + 1 < mantissaLimit := by
  have hs : 10 ^ 1 ≤ 10 ^ d.scale := Nat.pow_le_pow_right (by decide) (Nat.pos_of_ne_zero h)
  have hw : d.wholePart ≤ d.mantissa / 10 ^ 1 := Nat.div_le_div_left hs (by decide)
  have hm := d.mantissa_lt
  unfold mantissaLimit at *
  omega

/-- The value cut at the point, toward zero. -/
def trunc (d : Decimal) : Decimal :=
  ⟨d.negative && d.wholePart != 0, d.wholePart, 0, d.wholePart_lt, scale_zero_le⟩

def floor (d : Decimal) : Decimal :=
  if h : d.scale = 0 then d
  else if d.negative && !d.isWhole then ⟨true, d.wholePart + 1, 0, wholePart_succ_lt h, scale_zero_le⟩
  else d.trunc

def ceil (d : Decimal) : Decimal :=
  if h : d.scale = 0 then d
  else if d.negative || d.isWhole then d.trunc
  else ⟨false, d.wholePart + 1, 0, wholePart_succ_lt h, scale_zero_le⟩

/-- The whole part as a 64-bit number; negative values and larger ones have none. -/
def toUInt64? (d : Decimal) : Option UInt64 :=
  if d.negative then none
  else if d.wholePart < UInt64.size then some (UInt64.ofNat d.wholePart)
  else none

end OrderBook.Decimal

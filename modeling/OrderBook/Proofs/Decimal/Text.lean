import OrderBook.Decimal.Text
import OrderBook.Proofs.Decimal.Rounding
import OrderBook.Proofs.Text.Digits

/-!
Numbers as texts. A number is read from its text with all its digits, so with its scale; only the sign of
a zero is lost. While the digits are read nothing is dropped, because the mantissa has room for them.
-/

namespace OrderBook.Decimal

open OrderBook.Text

-- Powers are the ones that core defines.
attribute [local instance (high)] instPowNat

/-- The number without the sign that a zero may have. -/
def unsignZero (d : Decimal) : Decimal := { d with negative := d.negative && d.mantissa != 0 }

theorem sameValue_unsignZero (d : Decimal) : d.unsignZero.SameValue d := by
  have hcoefficient : d.unsignZero.coefficient = d.coefficient := by
    rw [coefficient, coefficient, unsignZero]
    cases d.negative with
    | false => rfl
    | true =>
      by_cases hzero : d.mantissa = 0
      · simp [hzero]
      · simp [hzero]
  show d.unsignZero.coefficient * 10 ^ d.scale = d.coefficient * 10 ^ d.scale
  rw [hcoefficient]

namespace Reading

/-- What has been read so far, with nothing dropped. -/
structure Shows (r : Reading) (mantissa scale : Nat) (point : Bool) : Prop where
  mantissa : r.mantissa = mantissa
  scale : r.scale = scale
  point : r.point = point
  dropped : r.dropped = none

variable {r : Reading} {m s : Nat} {point : Bool}

theorem next_eq_digit {c : Char} {k : Nat} (h : digit? c = some k) (r : Reading) :
    r.next c = r.digit k := by
  have hpoint : c ≠ '.' := by
    rintro rfl
    cases h
  have hunderscore : c ≠ '_' := by
    rintro rfl
    cases h
  rw [next, if_neg hpoint, if_neg hunderscore, h]
  rfl

theorem shows_next {c : Char} {k : Nat} (hc : digit? c = some k) (h : r.Shows m s point)
    (hm : m * 10 + k < mantissaLimit) (hs : point = true → s < 28) :
    ∃ u, r.next c = some u ∧ u.Shows (m * 10 + k) (if point then s + 1 else s) point ∧
      u.digits = true := by
  have hroom : r.isFull = false := by
    rw [isFull, h.point, h.scale]
    cases point with
    | false => rfl
    | true =>
      have hs := hs rfl
      simp
      omega
  have happend : r.digit k = some (r.append (m * 10 + k)) := by
    rw [digit, h.dropped, h.mantissa, hroom]
    simp [hm]
  refine ⟨r.append (m * 10 + k), (next_eq_digit hc r).trans happend, ⟨rfl, ?_, h.point, h.dropped⟩, rfl⟩
  show (if r.point then r.scale + 1 else r.scale) = _
  rw [h.point, h.scale]

theorem shows_natural (n : Nat) (hn : n < mantissaLimit) :
    ∃ u, (natural n).foldlM next {} = some u ∧ u.Shows n 0 false ∧ u.digits = true := by
  refine natural_induction (P := fun n cs => n < mantissaLimit →
    ∃ u, cs.foldlM next {} = some u ∧ u.Shows n 0 false ∧ u.digits = true) ?_ ?_ n hn
  · intro k hk hlimit
    have hstart : Shows {} 0 0 false := ⟨rfl, rfl, rfl, rfl⟩
    obtain ⟨u, hu, hshows, hdigits⟩ := shows_next (digit?_eq hk) hstart (by omega) nofun
    rw [Nat.zero_mul, Nat.zero_add] at hshows
    exact ⟨u, by simp [hu], hshows, hdigits⟩
  · intro n _ d hd ih hlimit
    obtain ⟨u, hu, hshows, -⟩ := ih (by omega)
    obtain ⟨v, hv, hshows, hdigits⟩ := shows_next (digit?_eq hd) hshows hlimit nofun
    exact ⟨v, by simp [hu, hv], hshows, hdigits⟩

theorem shows_padded (places n : Nat) (h : r.Shows m s true) (hdigits : r.digits = true)
    (hn : n < 10 ^ places) (hm : m * 10 ^ places + n < mantissaLimit) (hs : s + places ≤ 28) :
    ∃ u, (padded places n).foldlM next r = some u ∧
      u.Shows (m * 10 ^ places + n) (s + places) true ∧ u.digits = true := by
  induction places generalizing n with
  | zero =>
    obtain rfl : n = 0 := by
      rw [Nat.pow_zero] at hn
      omega
    rw [Nat.pow_zero, Nat.mul_one]
    exact ⟨r, rfl, h, hdigits⟩
  | succ places ih =>
    have hpow : 10 ^ (places + 1) = 10 ^ places * 10 := Nat.pow_succ 10 places
    rw [hpow] at hn hm ⊢
    rw [← Nat.mul_assoc] at hm ⊢
    have hlast : (m * 10 ^ places + n / 10) * 10 + n % 10 = m * 10 ^ places * 10 + n := by
      rw [Nat.add_mul, Nat.add_assoc, Nat.div_add_mod']
    obtain ⟨u, hu, hshows, -⟩ := ih (n / 10) (by omega) (by omega) (by omega)
    obtain ⟨v, hv, hshows, hdigits⟩ :=
      shows_next (digit?_digitChar n) hshows (by omega) (fun _ => by omega)
    rw [hlast] at hshows
    exact ⟨v, by simp [padded, hu, hv], hshows, hdigits⟩

end Reading

def unsignedDigits (d : Decimal) : List Char :=
  natural (d.mantissa / 10 ^ d.scale) ++
    (if d.scale = 0 then [] else '.' :: padded d.scale (d.mantissa % 10 ^ d.scale))

theorem render_eq (d : Decimal) :
    d.render = (if d.negative then ['-'] else []) ++ d.unsignedDigits := by
  rw [render, unsignedDigits, List.append_assoc]

theorem shows_unsignedDigits (d : Decimal) : ∃ u, d.unsignedDigits.foldlM Reading.next {} = some u ∧
    u.mantissa = d.mantissa ∧ u.scale = d.scale ∧ u.dropped = none ∧ u.digits = true := by
  have hdivision : d.mantissa / 10 ^ d.scale * 10 ^ d.scale + d.mantissa % 10 ^ d.scale = d.mantissa :=
    Nat.div_add_mod' _ _
  have hlimit := d.mantissa_lt
  have hwhole : d.mantissa / 10 ^ d.scale < mantissaLimit :=
    Nat.lt_of_le_of_lt (Nat.div_le_self _ _) hlimit
  obtain ⟨u, hu, hshows, hdigits⟩ := Reading.shows_natural _ hwhole
  by_cases hscale : d.scale = 0
  · rw [hscale, Nat.pow_zero, Nat.div_one] at hu hshows
    refine ⟨u, ?_, hshows.mantissa, hscale.symm ▸ hshows.scale, hshows.dropped, hdigits⟩
    rw [unsignedDigits, if_pos hscale, List.append_nil, hscale, Nat.pow_zero, Nat.div_one, hu]
  · have hpoint : u.next '.' = some { u with point := true } := by
      rw [Reading.next, if_pos rfl, hshows.point]
      rfl
    have hbehind : Reading.Shows { u with point := true } (d.mantissa / 10 ^ d.scale) 0 true :=
      ⟨hshows.mantissa, hshows.scale, rfl, hshows.dropped⟩
    obtain ⟨v, hv, hshows, hdigits⟩ := Reading.shows_padded d.scale (d.mantissa % 10 ^ d.scale) hbehind
      hdigits (Nat.mod_lt _ (ten_pow_pos _)) (by rwa [hdivision]) (by rw [Nat.zero_add]; exact d.scale_le)
    rw [hdivision, Nat.zero_add] at hshows
    refine ⟨v, ?_, hshows.mantissa, hshows.scale, hshows.dropped, hdigits⟩
    rw [unsignedDigits, if_neg hscale, List.foldlM_append, hu]
    simp [hpoint, hv]

theorem readUnsigned_unsignedDigits (d : Decimal) (negative : Bool) :
    readUnsigned negative d.unsignedDigits =
      some { d with negative := negative && d.mantissa != 0 } := by
  obtain ⟨u, hu, hmantissa, hscale, hdropped, hdigits⟩ := shows_unsignedDigits d
  rw [readUnsigned, hu]
  show u.finish negative = _
  rw [Reading.finish, hdigits, hdropped, hmantissa, hscale, if_neg (by decide), if_neg (by decide), mk?,
    dif_pos ⟨d.mantissa_lt, d.scale_le⟩]

theorem readPlain?_unsignedDigits (d : Decimal) :
    readPlain? d.unsignedDigits = readUnsigned false d.unsignedDigits := by
  obtain ⟨c, cs, hcons⟩ := List.exists_cons_of_ne_nil (natural_ne_nil (d.mantissa / 10 ^ d.scale))
  have hc := Json.Number.isDigit_of_mem_natural (hcons ▸ List.mem_cons_self)
  rw [unsignedDigits, hcons, List.cons_append, readPlain?]
  · rintro ds heq
    obtain ⟨rfl, -⟩ := List.cons.inj heq
    cases hc
  · rintro ds heq
    obtain ⟨rfl, -⟩ := List.cons.inj heq
    cases hc

theorem ofText?_toText (d : Decimal) : ofText? d.toText = some d.unsignZero := by
  have hplain : readPlain? d.render = some d.unsignZero := by
    rw [render_eq, unsignZero]
    cases d.negative with
    | false =>
      refine (readPlain?_unsignedDigits d).trans ?_
      exact readUnsigned_unsignedDigits d false
    | true => exact readUnsigned_unsignedDigits d true
  rw [ofText?, toText, String.toList_ofList, read?, hplain]
  rfl

end OrderBook.Decimal

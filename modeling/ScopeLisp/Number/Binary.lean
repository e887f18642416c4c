/-!
# Doubles as exact magnitudes

The bits of a finite double below its sign bit name a `Magnitude`, a significand times a power of
two, in units of the smallest positive double. `nearest` rounds a quotient to such bits, a half to
the even significand. Main statements: the bits of a magnitude are its own (`toBits_ofBits`), and
rounding a quotient that is a double already gives that double (`nearest_of_exact`).
-/

namespace ScopeLisp.Number

/-- The smallest positive magnitude, the unit, is two to minus this power. Written out, it has this
many decimal places. -/
def unitPlaces : Nat := 1074

/-- The bits of infinity, the least that no finite magnitude has. -/
def infinityBits : Nat := 2047 <<< 52

/-- `significand` times two to the power `exponent`, in units. -/
structure Magnitude where
  significand : Nat
  exponent : Nat
deriving DecidableEq, Repr

namespace Magnitude

/-- The magnitude that the bits `b` name. The leading one of the significand is stored only in the
exponent field: it is there unless that field is zero. -/
def ofBits (b : Nat) : Magnitude :=
  if b < 1 <<< 52 then ⟨b, 0⟩ else ⟨b % (1 <<< 52) + (1 <<< 52), b >>> 52 - 1⟩

/-- The leading one of the significand carries into the exponent field by itself. -/
def toBits (m : Magnitude) : Nat := m.exponent <<< 52 + m.significand

def units (m : Magnitude) : Nat := m.significand <<< m.exponent

theorem toBits_ofBits (b : Nat) : (ofBits b).toBits = b := by
  unfold ofBits toBits
  split <;> simp only [Nat.shiftLeft_eq, Nat.shiftRight_eq_div_pow] at * <;> omega

theorem significand_ofBits_lt (b : Nat) : (ofBits b).significand < 1 <<< 53 := by
  unfold ofBits
  split <;> simp only [Nat.shiftLeft_eq] at * <;> omega

theorem le_significand_ofBits {b : Nat} (h : (ofBits b).exponent ≠ 0) :
    1 <<< 52 ≤ (ofBits b).significand := by
  by_cases hb : b < 1 <<< 52
  · rw [ofBits, if_pos hb] at h
    exact absurd rfl h
  · simp only [ofBits, if_neg hb]
    exact Nat.le_add_left _ _

theorem log2_units {m : Magnitude} (hlt : m.significand < 1 <<< 53)
    (hle : 1 <<< 52 ≤ m.significand) : m.units.log2 = m.exponent + 52 := by
  rw [Nat.shiftLeft_eq, Nat.one_mul] at hlt hle
  have hpos : 0 < 2 ^ m.exponent := Nat.two_pow_pos _
  have hunits : m.units = m.significand * 2 ^ m.exponent := Nat.shiftLeft_eq _ _
  have hne : m.units ≠ 0 := by
    rw [hunits]
    exact Nat.mul_ne_zero (by omega) (by omega)
  rw [Nat.log2_eq_iff hne, hunits]
  constructor
  · rw [Nat.pow_add, Nat.mul_comm]
    exact Nat.mul_le_mul_right _ hle
  · have : 2 ^ (m.exponent + 52 + 1) = 2 ^ 53 * 2 ^ m.exponent := by
      rw [← Nat.pow_add]; congr 1; omega
    rw [this]
    exact Nat.mul_lt_mul_of_pos_right hlt hpos

end Magnitude

/-- `num / den` rounded to a whole number, a half to the even neighbour. -/
def roundDiv (num den : Nat) : Nat :=
  let low := num / den
  let rest := num % den
  if 2 * rest < den then low
  else if den < 2 * rest then low + 1
  else low + low % 2

theorem roundDiv_mul_right {den : Nat} (h : 0 < den) (n : Nat) : roundDiv (n * den) den = n := by
  simp [roundDiv, Nat.mul_div_cancel _ h, h]

/-- The bits of the magnitude nearest to `num / den`. The exponent is the least one with which the
significand has at most 53 bits; a significand rounded up beyond them carries into the exponent
field as it should. -/
def nearest (num den : Nat) : Nat :=
  let scaled := num <<< unitPlaces
  let whole := scaled / den
  let shift := if whole < 1 <<< 53 then 0 else whole.log2 - 52
  min infinityBits (shift <<< 52 + roundDiv scaled (den <<< shift))

/-- A quotient that is a finite double rounds to it. -/
theorem nearest_of_exact {b num den : Nat} (hb : b < infinityBits) (hden : 0 < den)
    (h : num <<< unitPlaces = (Magnitude.ofBits b).units * den) : nearest num den = b := by
  have hlt := Magnitude.significand_ofBits_lt b
  have hbits := Magnitude.toBits_ofBits b
  have hle := @Magnitude.le_significand_ofBits b
  generalize Magnitude.ofBits b = m at *
  have hunits : m.units = m.significand * 2 ^ m.exponent := Nat.shiftLeft_eq _ _
  have hshift : (if m.units < 1 <<< 53 then 0 else m.units.log2 - 52) = m.exponent := by
    by_cases he : m.exponent = 0
    · rw [if_pos (by simpa [Magnitude.units, he] using hlt), he]
    · have hge := hle he
      rw [if_neg, Magnitude.log2_units hlt hge, Nat.add_sub_cancel]
      rw [Nat.shiftLeft_eq, Nat.one_mul] at hge ⊢
      have htwo : 2 ^ 1 ≤ 2 ^ m.exponent := Nat.pow_le_pow_right (by decide) (by omega)
      have hmul : 2 ^ 52 * 2 ^ 1 ≤ m.units := hunits ▸ Nat.mul_le_mul hge htwo
      omega
  have hround : roundDiv (m.units * den) (den <<< m.exponent) = m.significand := by
    have : m.units * den = m.significand * (den <<< m.exponent) := by
      rw [hunits, Nat.shiftLeft_eq, Nat.mul_assoc, Nat.mul_comm (2 ^ m.exponent)]
    rw [this, roundDiv_mul_right]
    rw [Nat.shiftLeft_eq]
    exact Nat.mul_pos hden (Nat.two_pow_pos _)
  unfold nearest
  rw [h]
  simp only [Nat.mul_div_cancel _ hden, hshift, hround]
  rw [← hbits, Magnitude.toBits] at hb ⊢
  exact Nat.min_eq_right (Nat.le_of_lt hb)

/-- The bits of a double below its sign bit. -/
def magnitudeBits (x : Float) : Nat := x.toBits.toNat % (1 <<< 63)

def isNegative (x : Float) : Bool := 1 <<< 63 ≤ x.toBits.toNat

def ofSignBits (negative : Bool) (bits : Nat) : Float :=
  Float.ofBits (UInt64.ofNat (if negative then 1 <<< 63 + bits else bits))

end ScopeLisp.Number

import Mathlib
import ScopeLisp.Number.Binary

/-!
# Doubles and their bits

A double that is a number is its sign and its magnitude and nothing else: `ofSignBits_self` puts them
together again, and `magnitudeBits_ofSignBits` says that the bits up to those of infinity are kept when a
double is made of them. Only the bits of what is no number may be changed (`valid_of_le`).
-/

namespace ScopeLisp.Number

open Float.Model (Format)
open Float.Model.UnpackedFloat

section Fields

variable (b : BitVec Format.binary64.numBits)

theorem toNat_unpackMantissa : (unpackMantissa b).toNat = b.toNat % (1 <<< 52) := by
  rw [unpackMantissa_def, BitVec.extractLsb'_toNat]
  rfl

theorem toNat_unpackExponent : (unpackExponent b).toNat = b.toNat >>> 52 % (1 <<< 11) := by
  rw [unpackExponent_def, BitVec.extractLsb'_toNat]
  rfl

end Fields

/-- Only what is no number has bits that may be changed. -/
theorem valid_of_le {b : BitVec Format.binary64.numBits}
    (h : b.toNat % (1 <<< 63) ≤ infinityBits) : Format.binary64.Valid b := by
  refine ⟨fun he hm => absurd h (Nat.not_le.2 ?_)⟩
  have hexp := toNat_unpackExponent b
  have hmant := toNat_unpackMantissa b
  have hne : (unpackMantissa b).toNat ≠ 0 := fun h => hm (BitVec.eq_of_toNat_eq h)
  have h2047 : (-1#11).toNat = 2047 := by decide
  rw [he, h2047] at hexp
  simp only [infinityBits, Nat.shiftLeft_eq, Nat.shiftRight_eq_div_pow] at *
  omega

theorem toNat_toBits_ofBits {n : Nat} (hn : n < 1 <<< 64) (h : n % (1 <<< 63) ≤ infinityBits) :
    (Float.ofBits (.ofNat n)).toBits.toNat = n := by
  have htoNat : (UInt64.ofNat n).toBitVec.toNat = n := by
    rw [UInt64.toNat_toBitVec, UInt64.toNat_ofNat_of_lt' (by simpa using hn)]
  have hvalid : Format.binary64.Valid (UInt64.ofNat n).toBitVec :=
    valid_of_le (by rw [htoNat]; exact h)
  show (pack .binary64 (unpack .binary64 (UInt64.ofNat n).toBitVec)).toNat = n
  rw [pack_unpack_of_valid hvalid, htoNat]

theorem magnitudeBits_ofSignBits {bits : Nat} (h : bits ≤ infinityBits) (negative : Bool) :
    magnitudeBits (ofSignBits negative bits) = bits := by
  have hbits : bits < 1 <<< 63 := Nat.lt_of_le_of_lt h (by decide)
  rw [magnitudeBits, ofSignBits]
  generalize hn : (if negative = true then 1 <<< 63 + bits else bits) = n
  have hmod : n % (1 <<< 63) = bits := by
    simp only [Nat.shiftLeft_eq] at *
    split at hn <;> omega
  have hlt : n < 1 <<< 64 := by
    simp only [Nat.shiftLeft_eq] at *
    split at hn <;> omega
  rw [toNat_toBits_ofBits hlt (hmod ▸ h), hmod]

theorem ofSignBits_self (x : Float) : ofSignBits (isNegative x) (magnitudeBits x) = x := by
  have hlt : x.toBits.toNat < 1 <<< 64 := x.toBits.toNat_lt
  have hbits : (if isNegative x = true then 1 <<< 63 + magnitudeBits x else magnitudeBits x) =
      x.toBits.toNat := by
    unfold isNegative magnitudeBits
    simp only [Nat.shiftLeft_eq, decide_eq_true_eq] at *
    split <;> omega
  rw [ofSignBits, hbits, UInt64.ofNat_toNat, Float.ofBits_toBits]

theorem isInf_unpack (b : BitVec Format.binary64.numBits) :
    (unpack .binary64 b).isInf = true ↔ unpackExponent b = -1#11 ∧ unpackMantissa b = 0#52 := by
  rw [unpack]
  split
  · next he =>
    split
    · next hm => exact ⟨fun _ => ⟨he, hm⟩, fun _ => rfl⟩
    · next hm => exact ⟨nofun, fun h => absurd h.2 hm⟩
  · next he =>
    refine ⟨fun h => ?_, fun h => absurd h.1 he⟩
    split at h
    · split at h <;> cases h
    · cases h

theorem isInf_iff (x : Float) : x.isInf = true ↔ magnitudeBits x = infinityBits := by
  obtain ⟨⟨bits, hvalid⟩⟩ := x
  have hexp := toNat_unpackExponent bits.toBitVec
  have hmant := toNat_unpackMantissa bits.toBitVec
  have h2047 : (-1#11).toNat = 2047 := by decide
  refine (isInf_unpack bits.toBitVec).trans ?_
  show _ ↔ bits.toBitVec.toNat % (1 <<< 63) = infinityBits
  rw [← BitVec.toNat_inj, ← BitVec.toNat_inj, hexp, hmant, h2047]
  simp only [infinityBits, Nat.shiftLeft_eq, Nat.shiftRight_eq_div_pow, BitVec.toNat_ofNat]
  omega

theorem isNaN_unpack (b : BitVec Format.binary64.numBits) :
    (unpack .binary64 b).isNaN = true ↔ unpackExponent b = -1#11 ∧ unpackMantissa b ≠ 0#52 := by
  rw [unpack]
  split
  · next he =>
    split
    · next hm => exact ⟨nofun, fun h => absurd hm h.2⟩
    · next hm => exact ⟨fun _ => ⟨he, hm⟩, fun _ => rfl⟩
  · next he =>
    refine ⟨fun h => ?_, fun h => absurd h.1 he⟩
    split at h
    · split at h <;> cases h
    · cases h

theorem isNaN_iff (x : Float) : x.isNaN = true ↔ infinityBits < magnitudeBits x := by
  obtain ⟨⟨bits, hvalid⟩⟩ := x
  have hexp := toNat_unpackExponent bits.toBitVec
  have hmant := toNat_unpackMantissa bits.toBitVec
  have h2047 : (-1#11).toNat = 2047 := by decide
  refine (isNaN_unpack bits.toBitVec).trans ?_
  show _ ↔ infinityBits < bits.toBitVec.toNat % (1 <<< 63)
  rw [ne_eq, ← BitVec.toNat_inj, ← BitVec.toNat_inj, hexp, hmant, h2047]
  simp only [infinityBits, Nat.shiftLeft_eq, Nat.shiftRight_eq_div_pow, BitVec.toNat_ofNat]
  omega

end ScopeLisp.Number

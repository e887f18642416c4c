import ScopeLisp.Proofs.Doubles
import ScopeLisp.Native

/-!
# Equality

Two values are equal if they are one value, or the two zeros, but what is no number is not even
equal to itself (`Value.equal_eq_true_iff`). From this one law follow all others (`Store.equates`):
equality is symmetric and transitive, and equal values are of one kind and one truth and have one
text, but for the sign of a zero.
-/

namespace ScopeLisp

namespace Number

open Float.Model Float.Model.UnpackedFloat

/-- There is one pattern of bits for all that is no number. -/
theorem isNaN_unpack_iff_packedNaN {b : BitVec Format.binary64.numBits}
    (hb : Format.binary64.Valid b) : (unpack .binary64 b).isNaN = true ↔ b = packedNaN .binary64 := by
  constructor
  · intro h
    obtain ⟨hexponent, hmantissa⟩ := (isNaN_unpack b).1 h
    exact hb.eq_packedNaN hexponent hmantissa
  · rintro rfl
    rw [unpack_packedNaN]
    rfl

/-- A double is the bits that it consists of. -/
theorem eq_iff_bits {x y : Float} :
    x = y ↔ x.toModel.toBits.toBitVec = y.toModel.toBits.toBitVec := by
  constructor
  · rintro rfl
    rfl
  · obtain ⟨⟨bits, _⟩⟩ := x
    obtain ⟨⟨bits', _⟩⟩ := y
    intro h
    cases UInt64.toBitVec_inj.1 h
    rfl

theorem beq_iff (x y : Float) : (x == y) = true ↔
    x.isNaN = false ∧ y.isNaN = false ∧ (x = y ∨ x = 0 ∧ y = -0 ∨ x = -0 ∧ y = 0) := by
  have number : ∀ x : Float, x.isNaN = false ↔ x.toModel.toBits.toBitVec ≠ packedNaN .binary64 :=
    fun x => Bool.eq_false_iff.trans (not_congr (isNaN_unpack_iff_packedNaN x.toModel.valid))
  refine (unpack_beq_unpack_iff x.toModel.valid y.toModel.valid).trans ?_
  rw [number x, number y, @eq_iff_bits x y, @eq_iff_bits x 0, @eq_iff_bits x (-0),
    @eq_iff_bits y 0, @eq_iff_bits y (-0)]
  exact Iff.rfl

end Number

namespace Value

variable {u v w : Value}

/-- Is the number that is no number. -/
def IsNaN : Value → Prop
  | number x => x.isNaN = true
  | _ => False

/-- Are zero and minus zero, in the one order or the other. -/
def OppositeZeros (v w : Value) : Prop :=
  v = number 0 ∧ w = number (-0) ∨ v = number (-0) ∧ w = number 0

theorem OppositeZeros.symm (h : v.OppositeZeros w) : w.OppositeZeros v :=
  Or.elim h (fun h => .inr ⟨h.2, h.1⟩) fun h => .inl ⟨h.2, h.1⟩

/-- **All of equality.** -/
theorem equal_eq_true_iff :
    v.equal w = true ↔ ¬ v.IsNaN ∧ ¬ w.IsNaN ∧ (v = w ∨ v.OppositeZeros w) := by
  by_cases hv : v.kind = .number
  · by_cases hw : w.kind = .number
    · cases v <;> cases hv
      cases w <;> cases hw
      next x y =>
        refine (Number.beq_iff x y).trans ?_
        simp [IsNaN, OppositeZeros]
    · have hne : v.kind ≠ w.kind := fun h => hw (h ▸ hv)
      rw [equal_of_kind_ne hne]
      refine ⟨nofun, ?_⟩
      rintro ⟨-, -, rfl | ⟨rfl, rfl⟩ | ⟨rfl, rfl⟩⟩ <;> exact absurd rfl hne
  · rw [equal_iff hv]
    constructor
    · rintro rfl
      have hnan : ¬ v.IsNaN := by
        cases v with
        | number x => exact absurd rfl hv
        | _ => exact id
      exact ⟨hnan, hnan, .inl rfl⟩
    · rintro ⟨-, -, h | ⟨rfl, rfl⟩ | ⟨rfl, rfl⟩⟩
      · exact h
      · exact absurd rfl hv
      · exact absurd rfl hv

theorem equal_self_iff : v.equal v = true ↔ ¬ v.IsNaN := by
  rw [equal_eq_true_iff]
  exact ⟨fun h => h.1, fun h => ⟨h, h, .inl rfl⟩⟩

theorem equal_comm (v w : Value) : v.equal w = w.equal v := by
  rw [Bool.eq_iff_iff, equal_eq_true_iff, equal_eq_true_iff]
  constructor
  · rintro ⟨hv, hw, h⟩
    exact ⟨hw, hv, h.imp Eq.symm OppositeZeros.symm⟩
  · rintro ⟨hw, hv, h⟩
    exact ⟨hv, hw, h.imp Eq.symm OppositeZeros.symm⟩

theorem equal_trans (huv : u.equal v = true) (hvw : v.equal w = true) : u.equal w = true := by
  obtain ⟨hu, -, huv⟩ := equal_eq_true_iff.1 huv
  obtain ⟨-, hw, hvw⟩ := equal_eq_true_iff.1 hvw
  refine equal_eq_true_iff.2 ⟨hu, hw, ?_⟩
  rcases huv with rfl | huv
  · exact hvw
  · rcases hvw with rfl | hvw
    · exact .inr huv
    · rcases huv with ⟨rfl, rfl⟩ | ⟨rfl, rfl⟩ <;> rcases hvw with ⟨hv, rfl⟩ | ⟨hv, rfl⟩
      · exact .inr (.inl ⟨rfl, rfl⟩)
      · exact .inl rfl
      · exact .inl rfl
      · exact .inr (.inr ⟨rfl, rfl⟩)

theorem truth_eq_of_equal (h : v.equal w = true) : v.truth = w.truth := by
  obtain ⟨-, -, rfl | ⟨rfl, rfl⟩ | ⟨rfl, rfl⟩⟩ := equal_eq_true_iff.1 h
  · rfl
  · decide +kernel
  · decide +kernel

/-- The texts of equal values. Only the zeros have two. -/
theorem text_of_equal (s : Store) (h : v.equal w = true) :
    v.text s = w.text s ∨ v = number 0 ∧ w = number (-0) ∧ w.text s = "-" ++ v.text s ∨
      v = number (-0) ∧ w = number 0 ∧ v.text s = "-" ++ w.text s := by
  have hsign : Number.text (-0) = "-" ++ Number.text 0 := by decide +kernel
  obtain ⟨-, -, rfl | ⟨rfl, rfl⟩ | ⟨rfl, rfl⟩⟩ := equal_eq_true_iff.1 h
  · exact .inl rfl
  · exact .inr (.inl ⟨rfl, rfl, hsign⟩)
  · exact .inr (.inr ⟨rfl, rfl, hsign⟩)

end Value

/-- What equality, and the procedure that programs have for it, are to the values in a store. -/
structure Store.Equates (s : Store) : Prop where
  call : ∀ v w console, Native.equal.call [v, w] ⟨s, console⟩ =
    .value (.bool (v.equal w)) ⟨s, console⟩
  self : ∀ v : Value, v.equal v = true ↔ ¬ v.IsNaN
  symm : ∀ v w : Value, v.equal w = w.equal v
  trans : ∀ u v w : Value, u.equal v = true → v.equal w = true → u.equal w = true
  kind : ∀ v w : Value, v.equal w = true → v.kind = w.kind
  truth : ∀ v w : Value, v.equal w = true → v.truth = w.truth
  text : ∀ v w : Value, v.equal w = true → v.text s = w.text s ∨
    v = .number 0 ∧ w = .number (-0) ∧ w.text s = "-" ++ v.text s ∨
    v = .number (-0) ∧ w = .number 0 ∧ v.text s = "-" ++ w.text s

theorem Store.equates (s : Store) : s.Equates where
  call _ _ _ := rfl
  self _ := Value.equal_self_iff
  symm := Value.equal_comm
  trans _ _ _ := Value.equal_trans
  kind _ _ := Value.kind_eq_of_equal
  truth _ _ := Value.truth_eq_of_equal
  text _ _ := Value.text_of_equal s

end ScopeLisp

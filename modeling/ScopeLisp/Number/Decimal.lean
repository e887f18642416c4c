import ScopeLisp.Number.Binary

/-!
# Decimals and the shortest one

A `Decimal` is what positional notation writes: a coefficient with a number of places after the
point. `Decimal.shortest` is the decimal with the fewest digits that rounds to a given magnitude.
Every magnitude is a whole number of units of `10 ^ -1074`, so the search walks the grids of
multiples of `10 ^ step` such units from coarse to fine, and the finest grid holds the magnitude
itself. Main statement: what is found rounds to the magnitude (`nearest_shortest`).
-/

namespace ScopeLisp.Number

/-- `coefficient` divided by ten to the power `places`. -/
structure Decimal where
  coefficient : Nat
  places : Nat
deriving DecidableEq, Repr

namespace Decimal

def nearest (d : Decimal) : Nat := Number.nearest d.coefficient (Nat.pow 10 d.places)

/-- The digits, with a point before the last `places` of them and a zero before the point if no
other digit stands there. -/
def chars (d : Decimal) : List Char :=
  let digits := Nat.toDigits 10 d.coefficient
  if d.places = 0 then digits
  else
    let padded := List.replicate (d.places + 1 - digits.length) '0' ++ digits
    let split := padded.length - d.places
    padded.take split ++ '.' :: padded.drop split

/-- `count` multiples of ten to the power `step`, in units of `10 ^ -1074`. -/
def onGrid (step count : Nat) : Decimal :=
  if unitPlaces ≤ step then ⟨count * Nat.pow 10 (step - unitPlaces), 0⟩
  else ⟨count, unitPlaces - step⟩

/-- The magnitude with bits `b` in units of `10 ^ -1074`. -/
def units (b : Nat) : Nat := (Magnitude.ofBits b).units * Nat.pow 5 unitPlaces

/-- Of the two neighbours of the magnitude on the grid, the nearer one that rounds to it. When both
do and are equally near, the upper one. -/
def onGrid? (b step : Nat) : Option Decimal :=
  let spacing := Nat.pow 10 step
  let count := units b / spacing
  let rest := units b % spacing
  let lower := onGrid step count
  let upper := onGrid step (count + 1)
  if upper.nearest = b ∧ (lower.nearest ≠ b ∨ spacing ≤ 2 * rest) then some upper
  else if lower.nearest = b then some lower
  else none

/-- The first hit on the grids from `step` down to the finest. -/
def search (b : Nat) : Nat → Decimal
  | 0 => onGrid 0 (units b)
  | step + 1 =>
    match onGrid? b (step + 1) with
    | some d => d
    | none => search b step

/-- The decimal of fewest digits that rounds to the magnitude with bits `b`. The search starts above
the magnitude, since `30103 / 100000` exceeds the decimal logarithm of two. -/
def shortest (b : Nat) : Decimal :=
  if b = 0 then ⟨0, 0⟩ else search b ((units b).log2 * 30103 / 100000 + 1)

theorem nearest_finest {b : Nat} (hb : b < infinityBits) : (onGrid 0 (units b)).nearest = b := by
  refine nearest_of_exact hb (Nat.pow_pos (by decide)) ?_
  show units b <<< unitPlaces = _ * Nat.pow 10 unitPlaces
  rw [Nat.shiftLeft_eq, units, Nat.mul_assoc, Nat.pow_eq, Nat.pow_eq, ← Nat.mul_pow]

theorem nearest_of_onGrid? {b step : Nat} {d : Decimal} (h : onGrid? b step = some d) :
    d.nearest = b := by
  simp only [onGrid?] at h
  split at h
  · next hu => cases h; exact hu.1
  · split at h
    · next hl => cases h; exact hl
    · cases h

theorem nearest_search {b : Nat} (hb : b < infinityBits) (step : Nat) :
    (search b step).nearest = b := by
  induction step with
  | zero => exact nearest_finest hb
  | succ step ih =>
    rw [search]
    cases h : onGrid? b (step + 1) with
    | none => exact ih
    | some d => exact nearest_of_onGrid? h

/-- The shortest decimal reads back. -/
theorem nearest_shortest {b : Nat} (hb : b < infinityBits) : (shortest b).nearest = b := by
  unfold shortest
  split
  · next h =>
    subst h
    exact nearest_of_exact (by decide) (by decide) (by simp [Magnitude.ofBits, Magnitude.units])
  · exact nearest_search hb _

end Decimal

end ScopeLisp.Number

import ScopeLisp.Number.Numeral

/-!
# Data

Programs are data: numbers, strings, symbols and lists. A datum is written as the reader takes it:
a string between quotes exactly as it stands in memory, since escapes are never decoded, and a list
between parentheses with single spaces. `chars_list` and `charsAll_cons` are the equations of the
printer.
-/

namespace ScopeLisp

/-- A program or a part of one. -/
inductive Datum where
  | number (x : Float)
  /-- A quoted string, without its quotes and with its escapes as written. -/
  | str (text : String)
  | symbol (name : String)
  | list (items : List Datum)
deriving Inhabited, Repr

namespace Datum

mutual

/-- Equality of data. Two numbers are the same datum if their bits are the same, so zero is not
minus zero. -/
def decEq : (a b : Datum) → Decidable (a = b)
  | .number x, .number y => decidable_of_iff (x = y) (by simp)
  | .str x, .str y => decidable_of_iff (x = y) (by simp)
  | .symbol x, .symbol y => decidable_of_iff (x = y) (by simp)
  | .list xs, .list ys =>
    match decEqAll xs ys with
    | .isTrue h => .isTrue (by rw [h])
    | .isFalse h => .isFalse (by simpa using h)
  | .number _, .str _ | .number _, .symbol _ | .number _, .list _
  | .str _, .number _ | .str _, .symbol _ | .str _, .list _
  | .symbol _, .number _ | .symbol _, .str _ | .symbol _, .list _
  | .list _, .number _ | .list _, .str _ | .list _, .symbol _ => .isFalse (by simp)

def decEqAll : (xs ys : List Datum) → Decidable (xs = ys)
  | [], [] => .isTrue rfl
  | [], _ :: _ => .isFalse (by simp)
  | _ :: _, [] => .isFalse (by simp)
  | x :: xs, y :: ys =>
    match decEq x y, decEqAll xs ys with
    | .isTrue h, .isTrue hs => .isTrue (by rw [h, hs])
    | .isFalse h, _ => .isFalse (by simp [h])
    | _, .isFalse hs => .isFalse (by simp [hs])

end

instance : DecidableEq Datum := decEq

/-! ## Printing -/

mutual

def chars : Datum → List Char
  | .number x => Number.chars x
  | .str s => '"' :: (s.toList ++ ['"'])
  | .symbol s => s.toList
  | .list items => '(' :: (charsAll items ++ [')'])

/-- The texts of some data, one space apart. -/
def charsAll : List Datum → List Char
  | [] => []
  | [d] => d.chars
  | d :: ds => d.chars ++ ' ' :: charsAll ds

end

def text (d : Datum) : String := String.ofList d.chars

theorem chars_list (items : List Datum) :
    chars (.list items) = '(' :: (charsAll items ++ [')']) := by
  rw [chars]

theorem charsAll_cons (d : Datum) {ds : List Datum} (h : ds ≠ []) :
    charsAll (d :: ds) = d.chars ++ ' ' :: charsAll ds := by
  cases ds with
  | nil => exact absurd rfl h
  | cons => rw [charsAll]; simp

/-! ## Tags -/

/-- The symbol at the head of a list. It selects the form that the list is. -/
def tag? : Datum → Option String
  | .list (.symbol tag :: _) => some tag
  | _ => none

def isTagged (d : Datum) (tag : String) : Bool := d.tag? = some tag

end Datum

end ScopeLisp

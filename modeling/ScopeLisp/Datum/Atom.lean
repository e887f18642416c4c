import ScopeLisp.Datum

/-!
# Atoms

What a single item stands for: a quoted string, a number or a symbol. An item that starts like a
number has to be one; `startsNumber_of_numeral` says that the test lets every numeral through.
-/

namespace ScopeLisp

inductive ReadError where
  /-- There is no token. -/
  | empty
  | mismatchedParens
  /-- An item that is no atom, or a parenthesis that closes nothing. -/
  | erroneousToken (text : String)
  | unterminatedString
deriving DecidableEq, Repr

namespace ReadError

def message : ReadError → String
  | empty => "empty expression"
  | mismatchedParens => "mismatched parentheses"
  | erroneousToken text => "encountered erroneous '" ++ text ++ "'"
  | unterminatedString => "unterminated string literal"

end ReadError

namespace Datum

/-- What stands between the quotes of a quoted string. -/
def unquote? : List Char → Option (List Char)
  | '"' :: cs => if cs.getLast? = some '"' then some cs.dropLast else none
  | _ => none

/-- The item starts like a number: a digit, or a sign or a point before a digit, or a sign before a
point. -/
def startsNumber : List Char → Bool
  | '-' :: c :: _ | '+' :: c :: _ => c.isDigit || c = '.'
  | '.' :: c :: _ => c.isDigit
  | c :: _ => c.isDigit
  | [] => false

/-- The characters that symbols are made of. -/
def isSymbolChar (c : Char) : Bool := c.isAlphanum || "_+-*/<>=".toList.contains c

/-- The atom that an item stands for. The empty item, which no text contains, is a symbol. -/
def ofItem (text : String) : Except ReadError Datum :=
  let cs := text.toList
  match unquote? cs with
  | some inside => .ok (.str (String.ofList inside))
  | none =>
    if startsNumber cs then
      match Number.Numeral.ofChars? cs with
      | some n => .ok (.number n.toFloat)
      | none => .error (.erroneousToken text)
    else if cs.all isSymbolChar then .ok (.symbol text)
    else .error (.erroneousToken text)

/-! ## Every numeral starts like a number -/

open Number in
theorem startsNumber_of_numeral {cs : List Char} {n : Numeral} (h : Numeral.ofChars? cs = some n) :
    startsNumber cs = true := by
  have digit : ∀ {c : Char} {r : List Char}, c.isDigit = true → startsNumber (c :: r) = true := by
    intro c r hc
    unfold startsNumber
    split <;> simp_all
  have unsigned : ∀ r : List Char, (r.takeWhile Char.isDigit = [] ∧
      (Numeral.splitFraction (r.dropWhile Char.isDigit)).1 = []) ∨
      (∃ c r', r = c :: r' ∧ c.isDigit = true) ∨
      (∃ c r', r = '.' :: c :: r' ∧ c.isDigit = true) := by
    intro r
    match r with
    | [] => exact .inl (by simp [Numeral.splitFraction])
    | c :: r' =>
      by_cases hc : c.isDigit = true
      · exact .inr (.inl ⟨c, r', rfl, hc⟩)
      · have hdrop : (c :: r').dropWhile Char.isDigit = c :: r' := by simp [hc]
        have htake : (c :: r').takeWhile Char.isDigit = [] := by simp [hc]
        rw [hdrop, htake]
        by_cases hp : c = '.'
        · subst hp
          match r' with
          | [] => exact .inl (by simp [Numeral.splitFraction])
          | d :: r'' =>
            by_cases hd : d.isDigit = true
            · exact .inr (.inr ⟨d, r'', rfl, hd⟩)
            · exact .inl (by simp [Numeral.splitFraction, hd])
        · refine .inl ⟨rfl, ?_⟩
          unfold Numeral.splitFraction
          split <;> simp_all
  have parts : ¬((splitSign cs).2.takeWhile Char.isDigit = [] ∧
      (Numeral.splitFraction ((splitSign cs).2.dropWhile Char.isDigit)).1 = []) := by
    intro hbad
    simp [Numeral.ofChars?, hbad] at h
  have key := (unsigned (splitSign cs).2).resolve_left parts
  clear parts unsigned h
  unfold splitSign at key
  split at key
  · rcases key with ⟨c, r', he, hc⟩ | ⟨c, r', he, hc⟩ <;> simp_all [startsNumber]
  · rcases key with ⟨c, r', he, hc⟩ | ⟨c, r', he, hc⟩ <;> simp_all [startsNumber]
  · rcases key with ⟨c, r', he, hc⟩ | ⟨c, r', he, hc⟩
    · subst he; exact digit hc
    · simp_all [startsNumber]

end Datum

end ScopeLisp

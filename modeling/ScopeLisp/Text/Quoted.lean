import ScopeLisp.Text.Printable

/-!
# Quoted text

Names and paths are shown between double quotes, with escapes for the quote, the backslash and what
cannot be shown. Main statement: the printable characters other than these two stand for themselves
(`escape_of_isPrintable`).
-/

namespace ScopeLisp.Text

/-- A character inside of quotes. -/
def escape (c : Char) : List Char :=
  match c with
  | '"' => ['\\', '"']
  | '\\' => ['\\', '\\']
  | '\t' => ['\\', 't']
  | '\n' => ['\\', 'n']
  | '\r' => ['\\', 'r']
  | '\x00' => ['\\', '0']
  | c =>
    if isPrintable c then [c]
    else '\\' :: 'u' :: '{' :: (Nat.toDigits 16 c.toNat ++ ['}'])

/-- `s` between quotes. -/
def quote (s : String) : String := String.ofList ('"' :: (s.toList.flatMap escape ++ ['"']))

/-- The quoted texts in brackets, as a list is shown. -/
def quoteList (texts : List String) : String := "[" ++ ", ".intercalate (texts.map quote) ++ "]"

theorem escape_of_isPrintable {c : Char} (h : isPrintable c = true) (hq : c ≠ '"')
    (hb : c ≠ '\\') : escape c = [c] := by
  have hc := le_of_isPrintable h
  unfold escape
  split
  · exact absurd rfl hq
  · exact absurd rfl hb
  · simp at hc
  · simp at hc
  · simp at hc
  · simp at hc
  · rw [if_pos h]

end ScopeLisp.Text

import ScopeLisp.Number.Decimal

/-!
# Numerals

The text of a number. Reading takes an optional sign, digits with at most one point among or around
them, and an optional exponent, and rounds the value exactly. Writing uses positional notation with
the fewest digits that read back, at any size. Infinity and the value that is no number are written
as words; `ofText?` reads these too, `Numeral.ofChars?` does not.
-/

namespace ScopeLisp.Number

structure Numeral where
  negative : Bool
  whole : List Char
  fraction : List Char
  exponent : Int
deriving DecidableEq, Repr

def digitsValue (digits : List Char) : Nat :=
  digits.foldl (fun n c => 10 * n + (c.toNat - '0'.toNat)) 0

def splitSign : List Char → Bool × List Char
  | '-' :: cs => (true, cs)
  | '+' :: cs => (false, cs)
  | cs => (false, cs)

namespace Numeral

/-- The exponent at the end of a numeral: nothing, or `e` with an optional sign and digits. -/
def exponent? : List Char → Option Int
  | [] => some 0
  | c :: cs =>
    let (negative, digits) := splitSign cs
    if (c = 'e' ∨ c = 'E') ∧ digits ≠ [] ∧ digits.all Char.isDigit then
      some (if negative then -digitsValue digits else digitsValue digits)
    else none

/-- The digits after the point, if there is a point, and what follows them. -/
def splitFraction : List Char → List Char × List Char
  | '.' :: cs => (cs.takeWhile Char.isDigit, cs.dropWhile Char.isDigit)
  | cs => ([], cs)

/-- Reads a numeral. It needs a digit before or after the point. -/
def ofChars? (cs : List Char) : Option Numeral :=
  let (negative, unsigned) := splitSign cs
  let whole := unsigned.takeWhile Char.isDigit
  let (fraction, rest) := splitFraction (unsigned.dropWhile Char.isDigit)
  if whole = [] ∧ fraction = [] then none
  else (exponent? rest).map fun exponent => { negative, whole, fraction, exponent }

/-- Beyond ten to this power, and below its inverse, all magnitudes round alike. -/
def reach : Nat := 2000

/-- The bits of the magnitude nearest to the numeral. Powers of ten out of reach are not computed:
they give infinity or zero whatever the digits. -/
def magnitude (n : Numeral) : Nat :=
  let digits := n.whole ++ n.fraction
  let coefficient := digitsValue digits
  let power := n.exponent - n.fraction.length
  if coefficient = 0 then 0
  else if power > reach then infinityBits
  else if power + digits.length < -reach then 0
  else nearest (coefficient * Nat.pow 10 power.toNat) (Nat.pow 10 (-power).toNat)

def toFloat (n : Numeral) : Float := ofSignBits n.negative n.magnitude

end Numeral

def chars (x : Float) : List Char :=
  let bits := magnitudeBits x
  if infinityBits < bits then ['N', 'a', 'N']
  else
    let unsigned := if bits = infinityBits then ['i', 'n', 'f'] else (Decimal.shortest bits).chars
    if isNegative x then '-' :: unsigned else unsigned

def text (x : Float) : String := String.ofList (chars x)

/-- Reads a numeral or one of the words for infinity and for no number, in any letter case. -/
def ofText? (s : String) : Option Float :=
  match Numeral.ofChars? s.toList with
  | some n => some n.toFloat
  | none =>
    let (negative, word) := splitSign s.toList
    let word := String.ofList (word.map Char.toLower)
    if word = "inf" ∨ word = "infinity" then some (ofSignBits negative infinityBits)
    else if word = "nan" then some (ofSignBits false (infinityBits + 1))
    else none

end ScopeLisp.Number

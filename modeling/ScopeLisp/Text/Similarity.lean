/-!
# Similarity

How much two words resemble each other, from 0 to 1, so that a mistyped name can be told from one
that was never meant. Equal letters are paired where they stand not too far apart; what counts is
how many letters of each word are paired and how many pairs keep the order. A common beginning adds
to it.
-/

namespace ScopeLisp.Text

/-- The places that the letters of a word are paired with, from place `i` of the word on. A letter
takes the first free place with the same letter that is at most `reach` places away. -/
def partners (reach : Nat) (free : List (Char × Nat)) (i : Nat) : List Char → List Nat
  | [] => []
  | c :: cs =>
    match free.find? fun (d, j) => c = d && i ≤ j + reach && j ≤ i + reach with
    | some place => place.2 :: partners reach (free.erase place) (i + 1) cs
    | none => partners reach free (i + 1) cs

/-- The number of places that come after a greater one. -/
def descents : List Nat → Nat
  | i :: j :: rest => (if j < i then 1 else 0) + descents (j :: rest)
  | _ => 0

/-- The similarity of two words by their pairs alone: the mean of the part of the first word that is
paired, the part of the second, and the part of the pairs that are in order. Letters are paired
within less than half of the longer word. -/
def pairSimilarity (a b : List Char) : Float :=
  match partners (max a.length b.length / 2 - 1) b.zipIdx 0 a with
  | [] => 0
  | places =>
    let paired := places.length.toFloat
    let ordered := paired - (descents places).toFloat
    (1.0 / 3.0) * (paired / a.length.toFloat + paired / b.length.toFloat + ordered / paired)

/-- The similarity of two words. Each letter of a common beginning takes a tenth of what is missing
to 1. -/
def similarity (a b : List Char) : Float :=
  if a = b then 1
  else
    let common := ((a.zip b).takeWhile fun (x, y) => x = y).length
    let byPairs := pairSimilarity a b
    let both := byPairs + 0.1 * common.toFloat * (1.0 - byPairs)
    if both ≤ 1.0 then both else 1

end ScopeLisp.Text

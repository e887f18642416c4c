import ScopeLisp.Token
import ScopeLisp.Datum.Atom

/-!
# The reader

Tokens are read as data with a stack of the lists that are still open. `Datum.ofTokens` reads one
datum and hands back the tokens it left, also when it fails; `Datum.readTokens` reads all of them,
and `Datum.readText` reads a whole text. `readTokens_cons` says that reading all is reading one and
then the rest.
-/

namespace ScopeLisp

namespace Reader

/-- How far the reading of a datum has come. -/
inductive Progress where
  | complete (d : Datum)
  /-- The items of the lists still open, innermost list first, last item first. -/
  | within (lists : List (List Datum))
deriving DecidableEq, Repr

/-- A datum read completely goes into the innermost open list. -/
def put (d : Datum) : List (List Datum) → Progress
  | [] => .complete d
  | items :: outer => .within ((d :: items) :: outer)

def step (lists : List (List Datum)) : Token → Except ReadError Progress
  | .leftParen => .ok (.within ([] :: lists))
  | .rightParen =>
    match lists with
    | [] => .error (.erroneousToken ")")
    | items :: outer => .ok (put (.list items.reverse) outer)
  | .item text => (Datum.ofItem text).map (put · lists)

/-- Reads on until the datum is complete. -/
def readOne (lists : List (List Datum)) : List Token → Except ReadError Datum × List Token
  | [] => (.error (if lists = [] then .empty else .mismatchedParens), [])
  | t :: ts =>
    match step lists t with
    | .error e => (.error e, ts)
    | .ok (.complete d) => (.ok d, ts)
    | .ok (.within lists) => readOne lists ts

/-- Reads on until the tokens end, with the data read so far in `done`, last one first. -/
def readAll (lists : List (List Datum)) (done : List Datum) :
    List Token → Except ReadError (List Datum)
  | [] => if lists = [] then .ok done.reverse else .error .mismatchedParens
  | t :: ts =>
    match step lists t with
    | .error e => .error e
    | .ok (.complete d) => readAll [] (d :: done) ts
    | .ok (.within lists) => readAll lists done ts

end Reader

namespace Datum

/-- Reads one datum; the tokens after it are left. A failure leaves the tokens after the one that
showed it. -/
def ofTokens (tokens : List Token) : Except ReadError Datum × List Token :=
  Reader.readOne [] tokens

def readTokens (tokens : List Token) : Except ReadError (List Datum) :=
  Reader.readAll [] [] tokens

/-- Reads a program. The parentheses are counted before any of them is read, so a text in which they
differ in number is refused for that, whatever its items. -/
def readText (code : String) : Except ReadError (List Datum) :=
  match Token.scan? code with
  | none => .error .unterminatedString
  | some tokens =>
    if tokens = [] then .error .empty
    else if tokens.count .leftParen ≠ tokens.count .rightParen then .error .mismatchedParens
    else readTokens tokens

end Datum

/-! ## Reading all is reading one after the other -/

namespace Reader

theorem readAll_eq (lists : List (List Datum)) (done : List Datum) (ts : List Token)
    (h : lists ≠ [] ∨ ts ≠ []) :
    readAll lists done ts =
      match readOne lists ts with
      | (.error e, _) => .error e
      | (.ok d, rest) => readAll [] (d :: done) rest := by
  induction ts generalizing lists with
  | nil => simp_all [readAll, readOne]
  | cons t ts ih =>
    rw [readAll, readOne]
    cases hs : step lists t with
    | error e => rfl
    | ok p =>
      cases p with
      | complete d => rfl
      | within lists' =>
        refine ih lists' (.inl ?_)
        intro hnil
        subst hnil
        cases t with
        | leftParen => simp [step] at hs
        | rightParen =>
          cases lists with
          | nil => simp [step] at hs
          | cons items outer => cases outer <;> simp [step, put] at hs
        | item text =>
          cases ha : Datum.ofItem text <;> cases lists <;> simp [step, ha, put, Except.map] at hs

theorem readAll_done (lists : List (List Datum)) (done : List Datum) (ts : List Token) :
    readAll lists done ts = (readAll lists [] ts).map (done.reverse ++ ·) := by
  induction ts generalizing lists done with
  | nil => by_cases h : lists = [] <;> simp [readAll, h, Except.map]
  | cons t ts ih =>
    rw [readAll, readAll]
    cases step lists t with
    | error e => rfl
    | ok p =>
      cases p with
      | complete d =>
        simp only
        rw [ih [] (d :: done), ih [] [d]]
        cases readAll [] [] ts <;> simp [Except.map]
      | within lists' => exact ih lists' done

end Reader

theorem Datum.readTokens_cons (t : Token) (ts : List Token) :
    Datum.readTokens (t :: ts) =
      match Datum.ofTokens (t :: ts) with
      | (.error e, _) => .error e
      | (.ok d, rest) => (Datum.readTokens rest).map (d :: ·) := by
  rw [Datum.readTokens, Reader.readAll_eq [] [] _ (.inr (by simp)), Datum.ofTokens]
  split
  · rfl
  · rw [Reader.readAll_done]; rfl

end ScopeLisp

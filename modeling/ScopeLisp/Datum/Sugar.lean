import ScopeLisp.RunError

/-!
# Sugar

Two forms are written in terms of others: `switch` as nested `if`s and `def` as a `var` of a
`lambda`. The clauses of a `switch` are checked from the last to the first, all of them before any
is evaluated.
-/

namespace ScopeLisp.Datum

/-- The condition and the result of a clause. -/
def clause : Datum → Except RunError (Datum × Datum)
  | .list [condition, result] => .ok (condition, result)
  | d => .error (.malformedForm "switch" (.notAClause d))

/-- Nested `if`s for some clauses, of which the last and no other is `else`. -/
def nestClauses : List Datum → Except RunError Datum
  | [] => .error (.malformedForm "switch" .noClause)
  | [last] => do
    match ← clause last with
    | (.symbol "else", alternative) => .ok alternative
    | _ => .error (.malformedForm "switch" .lastNotElse)
  | first :: rest => do
    let alternative ← nestClauses rest
    match ← clause first with
    | (.symbol "else", _) => .error (.malformedForm "switch" .earlyElse)
    | (condition, result) => .ok (.list [.symbol "if", condition, result, alternative])

/-- A `switch` written with `if`. -/
def expandSwitch : Datum → Except RunError Datum
  | .list (.symbol "switch" :: clauses) => nestClauses clauses
  | _ => .error (.malformedForm "switch" .notASwitch)

/-- A `def` written with `var` and `lambda`. -/
def expandDef : Datum → Except RunError Datum
  | .list [.symbol "def", name, params, body] =>
    .ok (.list [.symbol "var", name, .list [.symbol "lambda", params, body]])
  | _ => .error (.malformedForm "def" .notADefinition)

end ScopeLisp.Datum

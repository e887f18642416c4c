import ScopeLisp.Value

/-!
# Errors of running programs

Each error is a cause; `RunError.message` words it.
-/

namespace ScopeLisp

/-- What is wrong with the shape of a form. -/
inductive ShapeFault where
  | operandCount (expected got : Nat)
  /-- Something else stands where a name has to be. -/
  | notAName (got : Datum)
  | notParameters (got : Datum)
  /-- An object is to be made of nothing. -/
  | noClass
  | notASwitch
  | noClause
  | notAClause (got : Datum)
  | lastNotElse
  | earlyElse
  | notADefinition
deriving DecidableEq, Repr

/-- The wording of a fault, after the name of the form. -/
def ShapeFault.message : ShapeFault → String
  | operandCount expected got =>
    "expected " ++ Nat.repr expected ++ " operands, got " ++ Nat.repr got
  | notAName got => "expected a name, got " ++ got.text
  | notParameters got => "expected a parameter list, got " ++ got.text
  | noClass => "expected a class"
  | notASwitch => "not a switch expression"
  | noClause => "at least an `else` clause is required"
  | notAClause got => "expected a (<cond> <expr>) clause, got " ++ got.text
  | lastNotElse => "the last clause must be `else`"
  | earlyElse => "`else` must be the last clause"
  | notADefinition => "expected (def <name> <params> <body>)"

inductive RunError where
  | notDefined (name : String)
  /-- A list that is no form and has nothing to call. -/
  | unimplementedForm (form : Datum)
  | malformedForm (form : String) (fault : ShapeFault)
  | typeError (operation : String) (expected got : Kind)
  /-- What `callee` evaluates to cannot be called. -/
  | uncallable (callee : Datum) (kind : Kind)
  | wrongCount (callee : String) (expected got : Nat)
deriving DecidableEq, Repr

def RunError.message : RunError → String
  | notDefined name => "`" ++ name ++ "` is not defined"
  | unimplementedForm form => "unimplemented form: " ++ form.text
  | malformedForm form fault => form ++ ": " ++ fault.message
  | typeError operation expected got =>
    operation ++ ": expected a " ++ expected.name ++ ", got a " ++ got.name ++ " instead"
  | uncallable callee kind =>
    "value `" ++ callee.text ++ "` (of type " ++ kind.name ++ ") is uncallable"
  | wrongCount callee expected got =>
    callee ++ ": expected " ++ Nat.repr expected ++ " params, got " ++ Nat.repr got ++ " instead"

end ScopeLisp

import ScopeLisp.Datum.Sugar

/-!
# Forms

What a datum asks the evaluator to do. A list headed by the name of a form has to have the shape of
that form, and `Form.ofDatum` checks this before anything is evaluated; any other list is a call.
The name of a property is checked only when the object is known, so it stays a datum here.
-/

namespace ScopeLisp

/-- A datum sorted by what it asks for. -/
inductive Form where
  | number (x : Float)
  | str (text : String)
  /-- Stands for the nearest binding of the name. -/
  | reference (name : String)
  /-- Binds the name in the present frame. -/
  | declare (name : String) (value : Datum)
  | assign (name : String) (value : Datum)
  /-- Binds the property in the object's own frame. -/
  | setProperty (object name value : Datum)
  | property (object name : Datum)
  /-- Evaluates the body in a frame of its own. -/
  | block (body : List Datum)
  | branch (condition consequence alternative : Datum)
  | loop (condition body : Datum)
  | closure (params : List String) (body : Datum)
  | classDef (name : String) (base body : Datum)
  | instantiate (cls : Datum) (args : List Datum)
  | call (callee : Datum) (args : List Datum)
  /-- Evaluates this instead. -/
  | expand (d : Datum)
deriving DecidableEq, Repr

namespace Form

def nameIn (form : String) : Datum → Except RunError String
  | .symbol name => .ok name
  | d => .error (.malformedForm form (.notAName d))

def miscounted (form : String) (expected : Nat) (operands : List Datum) : Except RunError Form :=
  .error (.malformedForm form (.operandCount expected operands.length))

/-- The form of a list headed by the symbol `tag`. -/
def ofTag (tag : String) (operands : List Datum) : Except RunError Form :=
  match tag with
  | "var" =>
    match operands with
    | [name, value] => return .declare (← nameIn "var" name) value
    | _ => miscounted "var" 2 operands
  | "set" =>
    match operands with
    | [.list (.symbol "prop" :: target), value] =>
      match target with
      | [object, name] => .ok (.setProperty object name value)
      | _ => miscounted "prop" 2 target
    | [name, value] => return .assign (← nameIn "set" name) value
    | _ => miscounted "set" 2 operands
  | "prop" =>
    match operands with
    | [object, name] => .ok (.property object name)
    | _ => miscounted "prop" 2 operands
  | "begin" => .ok (.block operands)
  | "if" =>
    match operands with
    | [condition, consequence, alternative] => .ok (.branch condition consequence alternative)
    | _ => miscounted "if" 3 operands
  | "while" =>
    match operands with
    | [condition, body] => .ok (.loop condition body)
    | _ => miscounted "while" 2 operands
  | "lambda" =>
    match operands with
    | [.list params, body] => return .closure (← params.mapM (nameIn "lambda (in params)")) body
    | [d, _] => .error (.malformedForm "lambda" (.notParameters d))
    | _ => miscounted "lambda" 2 operands
  | "class" =>
    match operands with
    | [name, base, body] => return .classDef (← nameIn "class" name) base body
    | _ => miscounted "class" 3 operands
  | "new" =>
    match operands with
    | cls :: args => .ok (.instantiate cls args)
    | [] => .error (.malformedForm "new" .noClass)
  | "switch" => .expand <$> Datum.expandSwitch (.list (.symbol tag :: operands))
  | "def" => .expand <$> Datum.expandDef (.list (.symbol tag :: operands))
  | _ => .ok (.call (.symbol tag) operands)

def ofDatum : Datum → Except RunError Form
  | .number x => .ok (.number x)
  | .str text => .ok (.str text)
  | .symbol name => .ok (.reference name)
  | .list [] => .error (.unimplementedForm (.list []))
  | .list (.symbol tag :: operands) => ofTag tag operands
  | .list (callee :: args) => .ok (.call callee args)

end Form

end ScopeLisp

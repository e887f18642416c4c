import ScopeLisp.Form
import ScopeLisp.Native

/-!
# Evaluation

The evaluator is written in open recursion: `evalForm` says what each form does, given an evaluator
for its parts, and `eval fuel` ties the knot as often as the fuel allows. So a law of all programs
is one case analysis of `evalForm` and one induction on the fuel (`eval_succ`). An outcome that is
not `unfinished` is the same for all greater fuel.

Evaluation goes from left to right, and an error ends it with all that was done before it.
-/

namespace ScopeLisp

abbrev Evaluator := Datum → FrameId → Action RunError Value

namespace Evaluator

/-- Evaluates some data in turn. The value is that of the last one, or `last` if there is none. -/
def block (eval : Evaluator) (env : FrameId) (last : Value) : List Datum → Action RunError Value
  | [] => pure last
  | d :: ds => do
    let v ← eval d env
    block eval env v ds

def values (eval : Evaluator) (env : FrameId) : List Datum → Action RunError (List Value)
  | [] => pure []
  | d :: ds => do
    let v ← eval d env
    let vs ← values eval env ds
    pure (v :: vs)

/-- Evaluates a body. One headed by `begin` is evaluated in the frame itself, and not in a new frame
inside of it. -/
def body (eval : Evaluator) (env : FrameId) : Datum → Action RunError Value
  | .list (.symbol "begin" :: ds) => block eval env .unit ds
  | d => eval d env

/-- Evaluates `body` as long as `condition` is true, at most `limit` times. -/
def loop (eval : Evaluator) (env : FrameId) (condition body : Datum) :
    (limit : Nat) → (last : Value) → Action RunError Value
  | 0, _ => .spent
  | limit + 1, last => do
    let test ← eval condition env
    if test.truth then
      let v ← eval body env
      loop eval env condition body limit v
    else pure last

/-- Calls a closure: its body is evaluated in a new frame that binds the parameters, inside of the
frame that the closure was made in. -/
def callClosure (eval : Evaluator) (callee : String) (c : Closure) (args : List Value) :
    Action RunError Value :=
  if args.length = c.params.length then do
    let frame ← Action.newFrame .call (some c.scope)
    Action.defineAll frame (c.params.zip args)
    eval.body frame c.body
  else .fail (.wrongCount callee c.params.length args.length)

def callProc (eval : Evaluator) (callee : String) (id : ClosureId) (args : List Value) :
    Action RunError Value := do
  match ← Action.closure? id with
  | some c => eval.callClosure callee c args
  | none => .fail (.notDefined callee)

def call (eval : Evaluator) (head : Datum) (callee : Value) (args : List Value) :
    Action RunError Value :=
  match callee with
  | .native op => op.call args
  | .proc id => eval.callProc head.text id args
  | v => .fail (.uncallable head v.kind)

end Evaluator

namespace Value

def asObject (operation : String) : Value → Except RunError FrameId
  | object frame => .ok frame
  | v => .error (.typeError operation .object v.kind)

/-- The object that a class extends. Null stands for none. -/
def asBase : Value → Except RunError (Option FrameId)
  | null => .ok none
  | v => (v.asObject "class (parent)").map some

end Value

open ScopeLisp.Evaluator ScopeLisp.Action in
/-- What each form does, given an evaluator for its parts. A `while` goes round at most `limit`
times. -/
def evalForm (limit : Nat) (eval : Evaluator) (env : FrameId) : Form → Action RunError Value
  | .number x => pure (.number x)
  | .str text => pure (.str text)
  | .reference name => lookup env name
  | .declare name value => do
    let v ← eval value env
    define env name v
  | .assign name value => do
    let v ← eval value env
    assign env name v
  | .setProperty object name value => do
    let o ← eval object env
    let frame ← ofExcept (o.asObject "set")
    let name ← ofExcept (Form.nameIn "prop" name)
    let v ← eval value env
    define frame name v
  | .property object name => do
    let o ← eval object env
    let frame ← ofExcept (o.asObject "prop")
    let name ← ofExcept (Form.nameIn "prop" name)
    lookup frame name
  | .block ds => do
    let frame ← newFrame .block (some env)
    block eval frame .unit ds
  | .branch condition consequence alternative => do
    let test ← eval condition env
    eval (if test.truth then consequence else alternative) env
  | .loop condition d => loop eval env condition d limit .unit
  | .closure params d => do
    let id ← newClosure { params, body := d, scope := env }
    pure (.proc id)
  | .classDef name base d => do
    let b ← eval base env
    let base ← ofExcept b.asBase
    let frame ← newFrame (.classBody base) (some (base.getD env))
    let _ ← body eval frame d
    define env name (.object frame)
  | .instantiate cls args => do
    let c ← eval cls env
    let cls ← ofExcept (c.asObject "new")
    let frame ← newFrame (.instanceOf cls) (some cls)
    let vs ← values eval env args
    match ← lookup cls "constructor" with
    | .proc id =>
      let _ ← callProc eval "constructor" id (.object frame :: vs)
      pure (.object frame)
    | v => fail (.typeError "new" .proc v.kind)
  | .call head args => do
    let callee ← eval head env
    let vs ← values eval env args
    call eval head callee vs
  | .expand d => eval d env

def evalDatum (limit : Nat) (eval : Evaluator) : Evaluator := fun d env =>
  match Form.ofDatum d with
  | .ok form => evalForm limit eval env form
  | .error e => .fail e

/-- Evaluates a datum in a frame with some fuel, which bounds both the depth of the recursion and
the rounds of a loop. -/
def eval : (fuel : Nat) → Evaluator
  | 0 => fun _ _ => .spent
  | fuel + 1 => evalDatum fuel (eval fuel)

theorem eval_succ (fuel : Nat) : eval (fuel + 1) = evalDatum fuel (eval fuel) := rfl

end ScopeLisp

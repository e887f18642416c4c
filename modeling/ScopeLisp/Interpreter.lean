import ScopeLisp.Datum.Reader
import ScopeLisp.Eval

/-!
# Interpreters

An interpreter is a global frame to run programs in. Interpreters share the store, and each has its
own globals. A program is read as a whole before any of it runs, and the first form that fails ends
it.
-/

namespace ScopeLisp

inductive ProgramError where
  | read (e : ReadError)
  | run (e : RunError)
deriving DecidableEq, Repr

def ProgramError.message : ProgramError → String
  | read e => e.message
  | run e => e.message

/-- A global frame to run programs in. -/
structure Interpreter where
  globalFrame : FrameId
deriving DecidableEq, Repr

namespace Interpreter

variable {ε : Type}

/-- An interpreter with a new global frame, which binds the constants and the native procedures. -/
def fresh : Action ε Interpreter := do
  let globalFrame ← Action.newFrame .global none
  Action.defineAll globalFrame globals
  pure { globalFrame }

/-- Evaluates a form in the global frame. A `begin` gets a frame of its own. -/
def evalForm (fuel : Nat) (i : Interpreter) (d : Datum) : Action RunError Value :=
  eval fuel d i.globalFrame

/-- Evaluates a form of a program, in the global frame itself also if it is a `begin`. -/
def evalGlobal (fuel : Nat) (i : Interpreter) (d : Datum) : Action RunError Value := do
  Action.log .debug d.text
  (eval fuel).body i.globalFrame d

/-- Evaluates the forms of a program in turn. The value is that of the last one, or `last` if there
is none. -/
def evalProgram (fuel : Nat) (i : Interpreter) (last : Value) : List Datum → Action RunError Value
  | [] => pure last
  | d :: ds => do
    let v ← i.evalGlobal fuel d
    i.evalProgram fuel v ds

def run (fuel : Nat) (i : Interpreter) (code : String) : Action ProgramError Value :=
  match Datum.readText code with
  | .error e => .fail (.read e)
  | .ok ds => (i.evalProgram fuel .unit ds).mapError .run

end Interpreter

end ScopeLisp

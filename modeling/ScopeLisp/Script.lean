import ScopeLisp.Interpreter
import ScopeLisp.Text.Quoted

/-!
# Scripts

A script is a program in a file. Unlike a program that is typed in, it goes on after a form that
fails: the form and its error are logged, and the failures are counted.
-/

namespace ScopeLisp

inductive SourceError where
  /-- The system could not read it, for the reason with this text and number. -/
  | system (reason : String) (code : Nat)
  | notUtf8
deriving DecidableEq, Repr

namespace SourceError

/-- There is no such file. -/
def missing : SourceError := system "No such file or directory" 2

/-- The path is that of a directory. -/
def isDirectory : SourceError := system "Is a directory" 21

def message : SourceError → String
  | system reason code => reason ++ " (os error " ++ Nat.repr code ++ ")"
  | notUtf8 => "stream did not contain valid UTF-8"

end SourceError

inductive ScriptError where
  | source (e : SourceError)
  | read (e : ReadError)
deriving DecidableEq, Repr

def ScriptError.message : ScriptError → String
  | source e => e.message
  | read e => e.message

/-- A path with what is found there. -/
structure Script where
  path : String
  content : Except SourceError String

def Script.textOfBytes (bytes : ByteArray) : Except SourceError String :=
  match String.fromUTF8? bytes with
  | some text => .ok text
  | none => .error .notUtf8

namespace Interpreter

/-- Evaluates the forms of a script in turn and logs those that fail. The value is their number. -/
def evalScript (fuel : Nat) (i : Interpreter) : List Datum → Action ScriptError Nat
  | [] => pure 0
  | d :: ds => do
    match ← (i.evalGlobal fuel d).attempt with
    | .ok _ => i.evalScript fuel ds
    | .error e =>
      Action.log .warning "an error ocurred:"
      Action.log .warning d.text
      Action.log .warning e.message
      let failed ← i.evalScript fuel ds
      pure (failed + 1)

def runScript (fuel : Nat) (i : Interpreter) (script : Script) : Action ScriptError Unit := do
  Action.log .info ("running " ++ Text.quote script.path ++ "...")
  let code ← (Action.ofExcept script.content).mapError .source
  let ds ← (Action.ofExcept (Datum.readText code)).mapError .read
  let failed ← i.evalScript fuel ds
  Action.log .info
    ("run_file: done (" ++ Nat.repr ds.length ++ " forms, " ++ Nat.repr failed ++ " failed)")

end Interpreter

end ScopeLisp

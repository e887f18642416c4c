import ScopeLisp.LineEditor
import ScopeLisp.Options
import ScopeLisp.Text.Blank

/-!
# The shell

The command line program. It runs the scripts in order, then either the program of the options, of
which it prints the value, or a loop over the lines of a line editor (`LineEditor`). A line is a
program of its own, or a command if it starts with `>`. All evaluations share one interpreter.
-/

namespace ScopeLisp

/-- What the shell can fail with: nothing, since every error is logged. -/
abbrev Quiet := Action Empty

namespace Shell

/-- Answers a command, which is what follows the `>` of a line. -/
def command (i : Interpreter) (line : String) : Quiet Unit := fun s =>
  let answer :=
    if line = "env" then ", ".intercalate (s.store.names i.globalFrame) else "invalid command"
  Action.print answer s

def command? : List Char → Option String
  | '>' :: c :: cs => some (Text.trim (String.ofList (c :: cs)))
  | _ => none

/-- Deals with one line of input. A blank line is skipped, and no text is printed for unit. -/
def line (fuel : Nat) (i : Interpreter) (line : String) : Quiet Unit :=
  if Text.trim line = "" then pure ()
  else
    match command? line.toList with
    | some line => command i line
    | none => do
      match ← (i.run fuel line).attempt with
      | .ok .unit => pure ()
      | .ok v => Action.print (← Action.textOf v)
      | .error e => Action.log .error e.message

/-- Runs a script. One that cannot be run is logged and otherwise ignored. -/
def script (fuel : Nat) (i : Interpreter) (s : Script) : Quiet Unit := do
  match ← (i.runScript fuel s).attempt with
  | .ok _ => pure ()
  | .error e => Action.log .warning e.message

/-- Runs the program of the options. The value is the exit status. -/
def program (fuel : Nat) (i : Interpreter) (code : String) : Quiet Nat := do
  match ← (i.run fuel code).attempt with
  | .ok v => do
    Action.print (← Action.textOf v)
    pure 0
  | .error e => do
    Action.log .error e.message
    pure 1

inductive Next where
  | exit (status : Nat)
  | readLines
deriving DecidableEq, Repr

/-- Everything up to the loop over lines. -/
def start (fuel : Nat) (o : Options) (scripts : List Script) : Quiet (Interpreter × Next) := do
  Action.setDebug o.debug
  Action.log .debug ("set options: " ++ o.text)
  let i ← Interpreter.fresh
  scripts.forM (script fuel i)
  match o.program with
  | some code => do
    let status ← program fuel i code
    pure (i, .exit status)
  | none => pure (i, if o.noRepl then .exit 0 else .readLines)

/-! ## The loop over lines -/

/-- Logs that something could not be done with the file of lines, if it could not. -/
def history (deed : String) : Option String → Quiet Unit
  | none => pure ()
  | some reason => Action.log .warning ("error " ++ deed ++ " history file: " ++ reason)

def event (fuel : Nat) (i : Interpreter) : LineEditor.Event → Quiet Unit
  | .line text => line fuel i text
  | .interrupted => Action.print "^C"

/-- The line that is kept for later runs. -/
def kept? : LineEditor.Event → Option String
  | .line text => if Text.trim text = "" then none else some text
  | .interrupted => none

/-- The exit status after a crash of the editor. -/
def crashStatus : Nat := 101

/-- What is done when no line comes any more. The value is the exit status. -/
def finish (saveError : Option String) : LineEditor.Stop → Quiet Nat
  | .ended => do
    Action.print "^D"
    history "saving" saveError
    pure 0
  | .failed reason => do
    Action.log .error reason
    history "saving" saveError
    pure 0
  | .crashed => pure crashStatus

/-- The loop over lines. The value is the exit status. -/
def readLines (fuel : Nat) (i : Interpreter) (editor : LineEditor) : Quiet Nat := do
  history "opening" editor.loadError
  editor.events.forM (event fuel i)
  finish (editor.saveError (editor.events.filterMap kept?)) editor.stop

/-- The whole program on some scripts and the lines of an editor. The value is the exit status. -/
def run (fuel : Nat) (o : Options) (scripts : List Script) (editor : LineEditor) : Quiet Nat := do
  match ← start fuel o scripts with
  | (_, .exit status) => pure status
  | (i, .readLines) => readLines fuel i editor

end Shell

end ScopeLisp

import ScopeLisp.Shell

/-!
# The program

Reads the arguments, the scripts and the lines of input, and writes what `Shell` makes of them. What
was printed and logged is written after the scripts, and then after each line. The lines are kept in
a file, one after the other.
-/

namespace ScopeLisp.Main

/-- Enough for all that can run in practice. -/
def fuel : Nat := 1 <<< 62

/-- The reason that the system gave for not reading a file. Its number can come with a minus
sign. -/
def reason : IO.Error → SourceError
  | .noFileOrDirectory .. => .missing
  | .inappropriateType _ code details | .permissionDenied _ code details
  | .invalidArgument _ code details | .resourceExhausted _ code details
  | .otherError code details | .unsupportedOperation code details
  | .hardwareFault code details => .system details code.toInt32.toInt.natAbs
  | e => .system (toString e) 0

/-- What is found at a path. -/
def readScript (path : String) : IO Script := do
  match ← (IO.FS.readBinFile path).toBaseIO with
  | .ok bytes => return { path, content := Script.textOfBytes bytes }
  | .error e => return { path, content := .error (reason e) }

/-- Does `x` and writes out what it printed and logged. -/
def perform {α : Type} (x : Quiet α) (s : State) : IO (α × State) :=
  match x s with
  | .value a s => do
    IO.print s.console.out
    IO.eprint s.console.err
    (← IO.getStdout).flush
    return (a, { s with console := { debug := s.console.debug } })
  | .error e _ => nomatch e
  | .unfinished => throw (IO.userError "out of fuel")

/-- The file of the lines of earlier runs. -/
def historyFile : String := ".eva_hist"

/-- Why the lines of earlier runs cannot be had, if they cannot. -/
def loadError : IO (Option String) := do
  match (← readScript historyFile).content with
  | .ok _ => return none
  | .error e => return some e.message

/-- Puts new lines after those of earlier runs. The value is why that fails, if it does. -/
def save (lines : List String) : IO (Option String) := do
  if lines.isEmpty then return none
  let write := IO.FS.withFile historyFile .append fun file => lines.forM file.putStrLn
  match ← write.toBaseIO with
  | .ok _ => return none
  | .error e => return some (reason e).message

/-- Deals with lines of input until there are no more. The value says why, and is followed by the
lines to be kept; `kept` are those so far, last line first. -/
partial def readLines (i : Interpreter) (kept : List String) (s : State) :
    IO (LineEditor.Stop × List String × State) := do
  match ← (← IO.getStdin).getLine.toBaseIO with
  | .error e => return (.failed (reason e).message, kept.reverse, s)
  | .ok text =>
    match LineEditor.arrivals (Text.lines text) with
    | (event :: _, _) => do
      let ((), s) ← perform (Shell.event fuel i event) s
      readLines i ((Shell.kept? event).toList ++ kept) s
    | ([], stop) => return (stop, kept.reverse, s)

/-- The loop over lines of input. The value is the exit status. -/
def repl (i : Interpreter) (s : State) : IO Nat := do
  let ((), s) ← perform (Shell.history "opening" (← loadError)) s
  let (stop, kept, s) ← readLines i [] s
  if stop = .crashed then IO.eprintln "a backspace ends inside a character"
  let saveError ← if stop = .crashed then pure none else save kept
  let (status, _) ← perform (Shell.finish saveError stop) s
  return status

end ScopeLisp.Main

open ScopeLisp ScopeLisp.Main in
/-- The command line program. -/
def main (args : List String) : IO UInt32 := do
  match Options.ofArgs args with
  | .error notice => do
    if notice.status = 0 then IO.print notice.text else IO.eprint notice.text
    return notice.status.toUInt32
  | .ok options => do
    let scripts ← options.files.mapM readScript
    let ((i, next), s) ← perform (Shell.start fuel options scripts) {}
    match next with
    | .exit status => return status.toUInt32
    | .readLines => do
      let status ← repl i s
      return status.toUInt32

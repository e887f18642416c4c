import ScopeLisp.Options.Notice
import ScopeLisp.Text.Quoted

/-!
# Command line options

An argument that starts with a hyphen sets switches, and any other names a script. Letters can be
written together, and the program of `-e` can follow in the same argument, with or without an equals
sign, or in the next one, which must not look like a switch then. A name comes after any number of
hyphens from two on. After `--` all arguments name scripts. No switch may be given twice. Arguments
are read in order up to the first one that is unknown or asks for a notice; what is missing or
repeated is told only when all are read.
-/

namespace ScopeLisp

/-- What the command line asks for. -/
structure Options where
  /-- Log every form before it is evaluated. -/
  debug : Bool := false
  /-- A program to run after the scripts instead of reading lines. -/
  program : Option String := none
  /-- Stop after the scripts. -/
  noRepl : Bool := false
  files : List String := []
deriving DecidableEq, Repr

/-- Arguments as far as they were read. -/
structure Arguments where
  given : List Switch := []
  programs : List String := []
  files : List String := []
  /-- Whether the next argument can be a program. -/
  awaitsProgram : Bool := false
deriving DecidableEq, Repr

namespace Arguments

/-- Takes a switch without a program. -/
def give (a : Arguments) : Switch → Except Notice Arguments
  | .help => .error .help
  | .version => .error .version
  | s => .ok { a with given := a.given ++ [s] }

/-- Takes the switch of a program, and what follows it in the same argument. Equals signs before the
program are no part of it. -/
def giveEval (a : Arguments) : List Char → Arguments
  | [] => { a with given := a.given ++ [.eval], awaitsProgram := true }
  | code =>
    { a with
      given := a.given ++ [.eval]
      programs := a.programs ++ [String.ofList (code.dropWhile (· = '='))] }

def giveLetters (a : Arguments) : List Char → Except Notice Arguments
  | [] => .ok a
  | c :: cs =>
    match Switch.ofLetter? c with
    | none => .error (.unknown ("-" ++ String.singleton c) none a.given)
    | some .eval => .ok (a.giveEval cs)
    | some s =>
      match a.give s with
      | .ok a => a.giveLetters cs
      | .error e => .error e

/-- Takes the word after two or more hyphens. What follows an equals sign is the program, and is
ignored if there can be none. -/
def giveWord (a : Arguments) (word : List Char) : Except Notice Arguments :=
  let (name, value) := (word.dropWhile (· = '-')).span (· ≠ '=')
  let name := String.ofList name
  match Switch.ofName? name with
  | none => .error (.unknown ("--" ++ name) (Switch.closest? name) a.given)
  | some .eval => .ok (a.giveEval value)
  | some s => a.give s

/-- Takes one argument. A hyphen alone is no switch. -/
def take (a : Arguments) (arg : String) : Except Notice Arguments :=
  match arg.toList with
  | '-' :: '-' :: word => { a with awaitsProgram := false }.giveWord word
  | '-' :: c :: cs => { a with awaitsProgram := false }.giveLetters (c :: cs)
  | _ =>
    if a.awaitsProgram then
      .ok { a with programs := a.programs ++ [arg], awaitsProgram := false }
    else .ok { a with files := a.files ++ [arg] }

def takeAll (a : Arguments) : List String → Except Notice Arguments
  | [] => .ok a
  | arg :: rest =>
    if arg = "--" then .ok { a with files := a.files ++ rest }
    else
      match a.take arg with
      | .ok a => a.takeAll rest
      | .error e => .error e

def repeated? (a : Arguments) : Option Switch := Switch.all.find? fun s => 1 < a.given.count s

def options (a : Arguments) : Except Notice Options :=
  if .eval ∈ a.given ∧ a.programs = [] then .error (.missingProgram a.given)
  else
    match a.repeated? with
    | some s => .error (.repeated s a.given)
    | none =>
      .ok {
        debug := .debug ∈ a.given
        program := a.programs.head?
        noRepl := .noRepl ∈ a.given
        files := a.files }

end Arguments

namespace Options

def ofArgs (args : List String) : Except Notice Options :=
  match ({} : Arguments).takeAll args with
  | .ok a => a.options
  | .error e => .error e

def readsLines (o : Options) : Bool := o.program.isNone && !o.noRepl

def boolText (b : Bool) : String := if b then "true" else "false"

def text (o : Options) : String :=
  let program := match o.program with
    | some code => "Some(" ++ Text.quote code ++ ")"
    | none => "None"
  "Opt \x7b debug: " ++ boolText o.debug ++ ", eval: " ++ program ++ ", no_repl: " ++
    boolText o.noRepl ++ ", files: " ++ Text.quoteList o.files ++ " \x7d"

end Options

end ScopeLisp

import ScopeLisp.Options.Switch

/-!
# Notices

What the command line program tells instead of running: what it is, or why its arguments make no
sense. The second kind is told as an error and comes with a line that shows the switches given so
far.
-/

namespace ScopeLisp

/-- What is told instead of running. -/
inductive Notice where
  | help
  | version
  /-- An argument is no switch; `meant` is one that it may stand for. -/
  | unknown (argument : String) (meant : Option Switch) (given : List Switch)
  /-- A switch needs a program and none follows. -/
  | missingProgram (given : List Switch)
  | repeated (switch : Switch) (given : List Switch)
deriving DecidableEq, Repr

namespace Notice

def usage : String := "eva [FLAGS] [OPTIONS] [FILE]..."

/-- How the program was called. Each switch is shown once, by name; scripts are not shown. -/
def usageOf : List Switch → String
  | [] => usage
  | given => " ".intercalate ("eva" :: (Switch.all.filter (· ∈ given)).map Switch.text)

def versionText : String := "eva 0.1.0\n"

def helpText : String :=
  versionText ++
  "a small lisp with closures and classes\n\n" ++
  "USAGE:\n    " ++ usage ++ "\n\n" ++
  "FLAGS:\n" ++
  "    -d, --debug      log every evaluated form\n" ++
  "    -h, --help       Prints help information\n" ++
  "        --no-repl    exit after running the given files\n" ++
  "    -V, --version    Prints version information\n\n" ++
  "OPTIONS:\n" ++
  "    -e, --eval <eval>    evaluate a program, print its value and exit\n\n" ++
  "ARGS:\n" ++
  "    <FILE>...    eva files to run on startup\n"

def errorText (reason : String) (given : List Switch) : String :=
  "error: " ++ reason ++ "\n\nUSAGE:\n    " ++ usageOf given ++
    "\n\nFor more information try --help\n"

/-- The question whether a switch was meant, with the switch in green. -/
def question (s : Switch) : String :=
  "\n\tDid you mean \x1b[32m--\x1b[0m\x1b[32m" ++ s.name ++ "\x1b[0m?"

/-- The text of a notice. A switch that may have been meant is shown with those given. -/
def text : Notice → String
  | help => helpText
  | version => versionText
  | unknown argument meant given =>
    errorText ("Found argument '" ++ argument ++
        "' which wasn't expected, or isn't valid in this context" ++ meant.elim "" question)
      (meant.toList ++ given)
  | missingProgram given =>
    errorText ("The argument '" ++ Switch.eval.text ++
      "' requires a value but none was supplied") given
  | repeated switch given =>
    errorText ("The argument '" ++ switch.text ++
      "' was provided more than once, but cannot be used multiple times") given

def status : Notice → Nat
  | help | version => 0
  | unknown .. | missingProgram _ | repeated .. => 1

end Notice

end ScopeLisp

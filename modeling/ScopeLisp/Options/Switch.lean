import ScopeLisp.Text.Similarity

/-!
# Switches

The options of the command line by their names and letters. A name that is none of them may be meant
for the one most similar to it (`closest?`). Each switch is found by its own name (`ofName?_name`).
-/

namespace ScopeLisp

inductive Switch where
  | debug | eval | help | noRepl | version
deriving DecidableEq, Repr

namespace Switch

/-- The name, which follows two hyphens. -/
def name : Switch → String
  | debug => "debug"
  | eval => "eval"
  | help => "help"
  | noRepl => "no-repl"
  | version => "version"

/-- The letter, which follows one hyphen. -/
def letter? : Switch → Option Char
  | debug => some 'd'
  | eval => some 'e'
  | help => some 'h'
  | noRepl => none
  | version => some 'V'

/-- All switches, by name. -/
def all : List Switch := [debug, eval, help, noRepl, version]

def ofName? (name : String) : Option Switch := all.find? (·.name = name)

def ofLetter? (letter : Char) : Option Switch := all.find? (·.letter? = some letter)

theorem ofName?_name (s : Switch) : ofName? s.name = some s := by cases s <;> decide

/-- The switch as it is shown to the user. That of a program names the program too. -/
def text (s : Switch) : String :=
  match s with
  | eval => "--eval <eval>"
  | s => "--" ++ s.name

/-- The switch whose name resembles a word most, if one resembles it by more than 0.8. Of two that
do so equally the earlier is taken, and the one that takes a program comes last. -/
def closest? (word : String) : Option Switch :=
  let step (best : Option (Switch × Float)) (s : Switch) : Option (Switch × Float) :=
    let similarity := Text.similarity word.toList s.name.toList
    if (best.elim 0.8 (·.2)) < similarity then some (s, similarity) else best
  ([debug, noRepl, help, version, eval].foldl step none).map (·.1)

end Switch

end ScopeLisp

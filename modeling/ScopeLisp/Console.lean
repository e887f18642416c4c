/-!
# The console

What a program has printed, and what has been logged about it. A log line names its level in colour.
Lines of level `debug` are dropped unless they are asked for.
-/

namespace ScopeLisp

inductive Level where
  | error | warning | info | debug
deriving DecidableEq, Repr

namespace Level

/-- The terminal code of the level's colour. -/
def color : Level → String
  | error => "\x1b[1;31m"
  | warning => "\x1b[1;33m"
  | info => "\x1b[1;32m"
  | debug => "\x1b[1;30m"

def label : Level → String
  | error => "error"
  | warning => "warning"
  | info => "info"
  | debug => "DEBUG"

end Level

/-- The two output texts so far, and whether debug lines are wanted. -/
structure Console where
  out : String := ""
  err : String := ""
  debug : Bool := false
deriving DecidableEq, Repr

namespace Console

def print (c : Console) (line : String) : Console := { c with out := c.out ++ line ++ "\n" }

/-- Whether a line of this level is written. -/
def shows (c : Console) (level : Level) : Bool := level != .debug || c.debug

def log (c : Console) (level : Level) (line : String) : Console :=
  if c.shows level then
    { c with
      err := c.err ++ "[eva] " ++ level.color ++ level.label ++ ":" ++ "\x1b[0m " ++ line ++ "\n" }
  else c

end Console

end ScopeLisp

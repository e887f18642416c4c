import ScopeLisp.Script
import ScopeLisp.Text.Lines
import ScopeLisp.Text.Typed

/-!
# Line editors

The shell gets its lines from a line editor, which keeps them in a file for later runs. What the
shell learns from it is whether the lines of earlier runs could be loaded, what came each time a line
was asked for, why none came any more, and whether the new lines could be saved. A `LineEditor` is
any such account. The one of a text that is piped in is `ofText`; lines without backspaces come from
it as they are (`arrivals_eq`).
-/

namespace ScopeLisp

namespace LineEditor

/-- What comes when a line is asked for. -/
inductive Event where
  | line (text : String)
  /-- The line was given up. -/
  | interrupted
deriving DecidableEq, Repr

/-- Why no line comes any more. -/
inductive Stop where
  | ended
  /-- The editor fails, with this text. -/
  | failed (reason : String)
  /-- The editor crashes, and the program with it. -/
  | crashed
deriving DecidableEq, Repr

end LineEditor

structure LineEditor where
  /-- Why the lines of earlier runs could not be loaded, if they could not. -/
  loadError : Option String
  events : List LineEditor.Event
  stop : LineEditor.Stop
  /-- Why these lines cannot be saved, if they cannot. -/
  saveError : List String → Option String

namespace LineEditor

/-- What comes of lines that were typed, up to the first one that cannot be taken. -/
def arrivals : List String → List Event × Stop
  | [] => ([], .ended)
  | line :: rest =>
    match Text.typed? line with
    | some text =>
      let (events, stop) := arrivals rest
      (.line text :: events, stop)
    | none => ([], .crashed)

/-- The editor of a text that is piped in, where there is no file of earlier lines and one can be
written. -/
def ofText (s : String) : LineEditor :=
  let (events, stop) := arrivals (Text.lines s)
  { loadError := some SourceError.missing.message, events, stop, saveError := fun _ => none }

theorem arrivals_eq {lines : List String} (h : ∀ line ∈ lines, Text.backspace ∉ line.toList) :
    arrivals lines = (lines.map .line, .ended) := by
  induction lines with
  | nil => rfl
  | cons line rest ih =>
    simp only [List.mem_cons, forall_eq_or_imp] at h
    rw [arrivals, Text.typed?_eq_self h.1, ih h.2]
    rfl

end LineEditor

end ScopeLisp

import ScopeLisp.Text.Blank

/-!
# Tokens

Program text is cut into parentheses and items. An item is either a quoted string, which keeps its
quotes and its escapes, or a run of other characters; blanks and comments only separate. The cut is
a fold of `Scanner.step` over the characters, so scanning `a ++ b` is scanning `b` from where `a`
left off (`Scanner.scan_append`).
-/

namespace ScopeLisp

inductive Token where
  | leftParen
  | rightParen
  | item (text : String)
deriving DecidableEq, Repr, Inhabited

namespace Scanner

/-- What the characters so far belong to. A pending item is kept last character first. -/
inductive Mode where
  | between
  | bare (pending : List Char)
  /-- Inside a quoted string, after its opening quote. -/
  | quoted (pending : List Char)
  /-- Inside a quoted string, after a backslash. -/
  | escaped (pending : List Char)
  /-- Inside a comment, which ends with its line. -/
  | comment
deriving DecidableEq, Repr

/-- The token that ends when the mode is left. -/
def Mode.flush : Mode → List Token
  | .bare pending => [.item (String.ofList pending.reverse)]
  | _ => []

/-- One character outside of strings and comments. -/
def stepBare (m : Mode) (pending : List Char) (c : Char) : Mode × List Token :=
  if c = '(' then (.between, m.flush ++ [.leftParen])
  else if c = ')' then (.between, m.flush ++ [.rightParen])
  else if c = '"' then (.quoted ['"'], m.flush)
  else if c = ';' then (.comment, m.flush)
  else if Text.isBlank c then (.between, m.flush)
  else (.bare (c :: pending), [])

/-- The mode after one more character, and the tokens that the character completes. An escape is
kept as it was written, backslash included. -/
def step : Mode → Char → Mode × List Token
  | .between, c => stepBare .between [] c
  | .bare pending, c => stepBare (.bare pending) pending c
  | .quoted pending, c =>
    if c = '\\' then (.escaped pending, [])
    else if c = '"' then (.between, [.item (String.ofList (c :: pending).reverse)])
    else (.quoted (c :: pending), [])
  | .escaped pending, c => (.quoted (c :: '\\' :: pending), [])
  | .comment, c => (if c = '\n' then .between else .comment, [])

/-- A mode together with the tokens completed so far, last one first. -/
structure Progress where
  mode : Mode := .between
  done : List Token := []
deriving DecidableEq, Repr

def Progress.push (p : Progress) (c : Char) : Progress :=
  let (mode, tokens) := step p.mode c
  { mode, done := tokens.reverse ++ p.done }

def scan (p : Progress) (cs : List Char) : Progress := cs.foldl Progress.push p

/-- The tokens of a text that ends here; `none` inside of a string. -/
def Progress.finish (p : Progress) : Option (List Token) :=
  match p.mode with
  | .quoted _ | .escaped _ => none
  | m => some (p.done.reverse ++ m.flush)

theorem scan_append (p : Progress) (as bs : List Char) :
    scan p (as ++ bs) = scan (scan p as) bs := List.foldl_append

end Scanner

/-- The tokens of a text, `none` if it ends inside of a quoted string. -/
def Token.scan? (code : String) : Option (List Token) :=
  (Scanner.scan {} code.toList).finish

/-- The tokens from the characters of the text. The kernel is slow to take a text apart, so concrete
texts are best read by this. -/
theorem Token.scan?_ofList (cs : List Char) :
    Token.scan? (String.ofList cs) = (Scanner.scan {} cs).finish := by
  rw [Token.scan?, String.toList_ofList]

end ScopeLisp

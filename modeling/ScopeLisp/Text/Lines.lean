/-!
# Lines

A text as its lines. A line ends with a line feed, and a carriage return before that is part of the
end; what follows the last line feed is a line too unless it is empty.
-/

namespace ScopeLisp.Text

/-- A line without the carriage return at its end, both last character first. -/
def dropReturn : List Char → List Char
  | '\r' :: cs => cs
  | cs => cs

/-- The lines of a text of which `pending` was read already, last character first. -/
def linesFrom (pending : List Char) : List Char → List String
  | [] => if pending = [] then [] else [String.ofList pending.reverse]
  | c :: cs =>
    if c = '\n' then String.ofList (dropReturn pending).reverse :: linesFrom [] cs
    else linesFrom (c :: pending) cs

/-- The lines of a text, without their ends. -/
def lines (s : String) : List String := linesFrom [] s.toList

end ScopeLisp.Text

import ScopeLisp.RunError

/-!
# Arithmetic

Numbers are doubles. Addition also joins strings, the left operand deciding which of the two is
meant; everything else is for numbers. A type error names the operand that is at fault, the left one
if both are.
-/

namespace ScopeLisp.Value

/-- The kind of the operand at fault when two numbers were expected. -/
def culprit (a b : Value) : Kind := if a.kind = .number then b.kind else a.kind

/-- Adds numbers or joins strings. -/
def add : Value → Value → Except RunError Value
  | number x, number y => .ok (number (x + y))
  | str s, str t => .ok (str (s ++ t))
  | str _, b => .error (.typeError "+" .str b.kind)
  | a, b => .error (.typeError "+" .number (culprit a b))

/-- Combines two numbers with `f`. -/
def onNumbers (operation : String) (f : Float → Float → Value) :
    Value → Value → Except RunError Value
  | number x, number y => .ok (f x y)
  | a, b => .error (.typeError operation .number (culprit a b))

def sub : Value → Value → Except RunError Value := onNumbers "-" fun x y => number (x - y)

def mul : Value → Value → Except RunError Value := onNumbers "*" fun x y => number (x * y)

/-- Divides; the quotient by zero is infinite, or no number. -/
def div : Value → Value → Except RunError Value := onNumbers "/" fun x y => number (x / y)

def neg : Value → Except RunError Value
  | number x => .ok (number (-x))
  | a => .error (.typeError "-" .number a.kind)

/-- Compares two numbers with `f`. -/
def compare (operation : String) (f : Float → Float → Bool) :
    Value → Value → Except RunError Value :=
  onNumbers operation fun x y => bool (f x y)

end ScopeLisp.Value

import ScopeLisp.Action
import ScopeLisp.Value.Arithmetic

/-!
# Native procedures

What the procedures of the global frame do, and all that a global frame starts with. Each takes two
arguments, but `-` takes also one and `print` any number.
-/

namespace ScopeLisp

namespace Native

/-- The procedure as a record. -/
def record (op : Native) : String := "NativeProc(" ++ op.name ++ ")"

/-- Applies `f` to the arguments if there are two. -/
def onTwo (op : Native) (f : Value → Value → Except RunError Value) :
    List Value → Action RunError Value
  | [a, b] => .ofExcept (f a b)
  | args => .fail (.wrongCount op.name 2 args.length)

def call : Native → List Value → Action RunError Value
  | add, args => onTwo add Value.add args
  | sub, [a] => .ofExcept a.neg
  | sub, args => onTwo sub Value.sub args
  | mul, args => onTwo mul Value.mul args
  | div, args => onTwo div Value.div args
  | greater, args => onTwo greater (Value.compare greater.name fun x y => y < x) args
  | greaterEq, args => onTwo greaterEq (Value.compare greaterEq.name fun x y => y ≤ x) args
  | less, args => onTwo less (Value.compare less.name fun x y => x < y) args
  | lessEq, args => onTwo lessEq (Value.compare lessEq.name fun x y => x ≤ y) args
  | equal, args => onTwo equal (fun a b => .ok (.bool (a.equal b))) args
  | print, args => do
    Action.print (" ".intercalate (← Action.textsOf args))
    pure .unit

end Native

/-- The version of the language, which programs can read. -/
def version : String := "0.1"

/-- What a global frame binds from the start. -/
def globals : List (String × Value) :=
  [("null", .null), ("true", .bool true), ("false", .bool false), ("VERSION", .str version)] ++
    Native.all.map fun op => (op.name, .native op)

end ScopeLisp

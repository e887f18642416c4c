import ScopeLisp.Datum

/-!
# Values

What programs compute with. Closures and objects are handles into the store, so that two handles are
equal exactly when they came from one evaluation; everything else is compared by content. Main
statement: equality relates only values of one kind (`kind_eq_of_equal`).
-/

namespace ScopeLisp

abbrev FrameId := Nat

abbrev ClosureId := Nat

/-- The procedures that every global frame starts with. -/
inductive Native where
  | add | sub | mul | div
  | greater | greaterEq | less | lessEq
  | equal
  | print
deriving DecidableEq, Repr

namespace Native

/-- The name under which the procedure is bound. -/
def name : Native → String
  | add => "+"
  | sub => "-"
  | mul => "*"
  | div => "/"
  | greater => ">"
  | greaterEq => ">="
  | less => "<"
  | lessEq => "<="
  | equal => "="
  | print => "print"

def all : List Native :=
  [add, sub, mul, div, greater, greaterEq, less, lessEq, equal, print]

theorem name_injective {m n : Native} (h : m.name = n.name) : m = n := by
  revert h; cases m <;> cases n <;> decide

end Native

inductive Value where
  | number (x : Float)
  | str (text : String)
  | bool (b : Bool)
  | null
  | native (op : Native)
  | proc (id : ClosureId)
  /-- A class or an instance, whose members are the bindings of the frame. -/
  | object (frame : FrameId)
  | unit
deriving DecidableEq, Inhabited, Repr

/-- The kinds of values that programs and messages tell apart. -/
inductive Kind where
  | number | str | bool | null | native | proc | object | unit
deriving DecidableEq, Repr

/-- The name of a kind in messages. -/
def Kind.name : Kind → String
  | number => "Number"
  | str => "Str"
  | bool => "Bool"
  | null => "Null"
  | native => "Native"
  | proc => "Proc"
  | object => "Object"
  | unit => "Unit"

namespace Value

def kind : Value → Kind
  | number _ => .number
  | str _ => .str
  | bool _ => .bool
  | null => .null
  | native _ => .native
  | proc _ => .proc
  | object _ => .object
  | unit => .unit

/-- How a value counts as a condition: null, unit, the empty string, zero and the number that is no
number are false. -/
def truth : Value → Bool
  | bool b => b
  | null | unit => false
  | number x => !(x == 0) && x == x
  | str text => !text.isEmpty
  | native _ | proc _ | object _ => true

/-- Equality as programs see it. Numbers are equal if they have the same value, so zero equals minus
zero and what is no number equals nothing; closures and objects are equal if they are the same
one. -/
def equal : Value → Value → Bool
  | number x, number y => x == y
  | a, b => a = b

theorem equal_of_kind_ne {a b : Value} (h : a.kind ≠ b.kind) : a.equal b = false := by
  cases a <;> cases b <;> simp_all [equal, kind]

theorem kind_eq_of_equal {a b : Value} (h : a.equal b = true) : a.kind = b.kind := by
  apply Decidable.byContradiction
  intro hk
  simp [equal_of_kind_ne hk] at h

/-- Away from numbers equality is identity. -/
theorem equal_iff {a b : Value} (h : a.kind ≠ .number) : a.equal b = true ↔ a = b := by
  cases a <;> cases b <;> simp_all [equal, kind]

end Value

end ScopeLisp

import ScopeLisp.Store
import ScopeLisp.Console
import ScopeLisp.RunError

/-!
# Actions

A step of a program acts on the store and the console. It ends with a value or with an error, each
with the state it leaves, or it is cut off unfinished when its fuel is spent; an error undoes
nothing. Actions are chained with `bind`: the first one that does not end with a value decides.
-/

namespace ScopeLisp

structure State where
  store : Store := {}
  console : Console := {}
deriving DecidableEq, Repr

inductive Outcome (ε α : Type) where
  | value (a : α) (after : State)
  | error (e : ε) (after : State)
  /-- The fuel did not last. -/
  | unfinished
deriving DecidableEq, Repr

namespace Outcome

variable {ε α : Type}

def Ends : Outcome ε α → Prop
  | unfinished => False
  | _ => True

/-- The state left by an action that came to an end. -/
def after? : Outcome ε α → Option State
  | value _ s | error _ s => some s
  | unfinished => none

/-- The value or the error, with the state left. -/
def result? : Outcome ε α → Option (Except ε α × State)
  | value a s => some (.ok a, s)
  | error e s => some (.error e, s)
  | unfinished => none

end Outcome

/-- What can fail with `ε` and yields `α`. -/
def Action (ε α : Type) := State → Outcome ε α

namespace Action

variable {ε α β : Type}

@[always_inline, inline]
protected def pure (a : α) : Action ε α := fun s => .value a s

/-- Does `x` and then what `f` makes of its value. -/
@[always_inline, inline]
protected def bind (x : Action ε α) (f : α → Action ε β) : Action ε β := fun s =>
  match x s with
  | .value a s => f a s
  | .error e s => .error e s
  | .unfinished => .unfinished

@[always_inline]
instance : Monad (Action ε) where
  pure := Action.pure
  bind := Action.bind

theorem pure_apply (a : α) (s : State) : (pure a : Action ε α) s = .value a s := rfl

theorem bind_apply (x : Action ε α) (f : α → Action ε β) (s : State) :
    (x >>= f) s =
      match x s with
      | .value a s => f a s
      | .error e s => .error e s
      | .unfinished => .unfinished := rfl

theorem bind_eq_value_iff {x : Action ε α} {f : α → Action ε β} {s t : State} {b : β} :
    (x >>= f) s = .value b t ↔ ∃ a u, x s = .value a u ∧ f a u = .value b t := by
  rw [bind_apply]
  constructor
  · intro h
    cases hx : x s with
    | value a u =>
      rw [hx] at h
      exact ⟨a, u, rfl, h⟩
    | error e u =>
      rw [hx] at h
      cases h
    | unfinished =>
      rw [hx] at h
      cases h
  · rintro ⟨a, u, hx, hf⟩
    rw [hx]
    exact hf

instance : LawfulMonad (Action ε) := LawfulMonad.mk' _
  (fun x => by
    funext s
    show Action.bind x (Action.pure ∘ id) s = x s
    unfold Action.bind
    cases x s <;> rfl)
  (fun _ _ => rfl)
  (fun x f g => by
    funext s
    simp only [bind_apply]
    cases x s <;> rfl)

@[inline]
def fail (e : ε) : Action ε α := fun s => .error e s

@[inline]
def spent : Action ε α := fun _ => .unfinished

@[inline]
def ofExcept : Except ε α → Action ε α
  | .ok a => pure a
  | .error e => fail e

/-- Goes on after an error, with the error as the value. -/
@[inline]
def attempt {δ : Type} (x : Action ε α) : Action δ (Except ε α) := fun s =>
  match x s with
  | .value a s => .value (.ok a) s
  | .error e s => .value (.error e) s
  | .unfinished => .unfinished

@[inline]
def mapError {δ : Type} (f : ε → δ) (x : Action ε α) : Action δ α := fun s =>
  match x s with
  | .value a s => .value a s
  | .error e s => .error (f e) s
  | .unfinished => .unfinished

/-! ## Acting on the store -/

def lookup (env : FrameId) (name : String) : Action RunError Value := fun s =>
  match s.store.lookup? env name with
  | some v => .value v s
  | none => .error (.notDefined name) s

/-- Binds `name` in the frame itself and yields the value. -/
def define (env : FrameId) (name : String) (v : Value) : Action ε Value := fun ⟨store, console⟩ =>
  .value v ⟨store.define env name v, console⟩

def defineAll (env : FrameId) : List (String × Value) → Action ε Unit
  | [] => pure ()
  | (name, v) :: rest => do
    let _ ← define env name v
    defineAll env rest

/-- Changes the nearest binding of `name` and yields the value. -/
def assign (env : FrameId) (name : String) (v : Value) : Action RunError Value := fun s =>
  match s.store.owner? env name with
  | some f => define f name v s
  | none => .error (.notDefined name) s

def newFrame (role : Role) (parent : Option FrameId) : Action ε FrameId := fun ⟨store, console⟩ =>
  let (id, store) := store.addFrame role parent
  .value id ⟨store, console⟩

def newClosure (c : Closure) : Action ε ClosureId := fun ⟨store, console⟩ =>
  let (id, store) := store.addClosure c
  .value id ⟨store, console⟩

/-- The closure behind a handle. -/
def closure? (id : ClosureId) : Action ε (Option Closure) := fun s =>
  .value s.store.closures[id]? s

/-- The text of a value as it is now. -/
def textOf (v : Value) : Action ε String := fun s => .value (v.text s.store) s

def textsOf (vs : List Value) : Action ε (List String) := fun s =>
  .value (vs.map (Value.text s.store)) s

/-! ## Acting on the console -/

def print (line : String) : Action ε Unit := fun ⟨store, console⟩ =>
  .value () ⟨store, console.print line⟩

def setDebug (on : Bool) : Action ε Unit := fun ⟨store, console⟩ =>
  .value () ⟨store, { console with debug := on }⟩

def log (level : Level) (line : String) : Action ε Unit := fun ⟨store, console⟩ =>
  .value () ⟨store, console.log level line⟩

end Action

end ScopeLisp

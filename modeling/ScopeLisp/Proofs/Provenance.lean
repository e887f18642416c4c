import ScopeLisp.Proofs.Session

/-!
# Provenance

The evaluator once more, with an account of where closures and objects come from. Evaluations are
numbered in the order in which they begin, and a closure or an object carries the number of the
evaluation that made it, its source. The source goes with the value wherever that goes: into bindings
and out of them, through parameters, properties and results. Nothing that is done depends on
sources, so that without them this is the evaluator itself (`Tracker.eval_erases`), and the tracked
sessions are the sessions (`Session.reached_iff_exists_tracked`).
-/

namespace ScopeLisp

/-- A value with its source. Only closures and objects have one. -/
structure Sourced where
  value : Value
  source : Option Nat
deriving DecidableEq, Repr

/-- A value that no evaluation made. -/
def Sourced.plain (v : Value) : Sourced := ⟨v, none⟩

/-- The account that is kept beside the state. -/
structure Ledger where
  /-- The data whose evaluation has begun. Their places are the numbers of the evaluations. -/
  begun : List Datum := []
  /-- What evaluations came to, for those that ended with a value. -/
  ended : List (Nat × Sourced) := []
  /-- All closures and objects. -/
  made : List Sourced := []
  /-- The source of what a name is bound to in a frame. -/
  bound : FrameId → String → Option Nat := fun _ _ => none

namespace Ledger

/-- The source of what a name means in a frame. -/
def meant (l : Ledger) (s : Store) (env : FrameId) (name : String) : Option Nat :=
  (s.owner? env name).bind fun f => l.bound f name

def bind (l : Ledger) (f : FrameId) (name : String) (source : Option Nat) : Ledger :=
  { l with bound := fun g other => if g = f ∧ other = name then source else l.bound g other }

end Ledger

/-- An action that also keeps the account. -/
def Tracked (ε α : Type) := Ledger → State → Outcome ε α × Ledger

namespace Tracked

variable {ε δ α β : Type}

protected def pure (a : α) : Tracked ε α := fun l s => (.value a s, l)

protected def bind (x : Tracked ε α) (f : α → Tracked ε β) : Tracked ε β := fun l s =>
  match x l s with
  | (.value a s, l) => f a l s
  | (.error e s, l) => (.error e s, l)
  | (.unfinished, l) => (.unfinished, l)

instance : Monad (Tracked ε) where
  pure := Tracked.pure
  bind := Tracked.bind

theorem bind_apply (x : Tracked ε α) (f : α → Tracked ε β) (l : Ledger) (s : State) :
    (x >>= f) l s =
      match x l s with
      | (.value a s, l) => f a l s
      | (.error e s, l) => (.error e s, l)
      | (.unfinished, l) => (.unfinished, l) := rfl

/-- An action in which sources have no part. -/
def lift (x : Action ε α) : Tracked ε α := fun l s => (x s, l)

def fail (e : ε) : Tracked ε α := lift (.fail e)

def attempt (x : Tracked ε α) : Tracked δ (Except ε α) := fun l s =>
  match x l s with
  | (.value a s, l) => (.value (.ok a) s, l)
  | (.error e s, l) => (.value (.error e) s, l)
  | (.unfinished, l) => (.unfinished, l)

def mapError (f : ε → δ) (x : Tracked ε α) : Tracked δ α := fun l s =>
  match x l s with
  | (.value a s, l) => (.value a s, l)
  | (.error e s, l) => (.error (f e) s, l)
  | (.unfinished, l) => (.unfinished, l)

/-! ## The account of evaluations -/

/-- The evaluation of a datum begins and gets its number. -/
def begins (d : Datum) : Tracked ε Nat := fun l s =>
  (.value l.begun.length s, { l with begun := l.begun ++ [d] })

def ends (n : Nat) (v : Sourced) : Tracked ε Unit := fun l s =>
  (.value () s, { l with ended := (n, v) :: l.ended })

def makes (v : Sourced) : Tracked ε Unit := fun l s =>
  (.value () s, { l with made := v :: l.made })

/-! ## Acting on the store -/

def lookup (env : FrameId) (name : String) : Tracked RunError Sourced := fun l s =>
  match s.store.lookup? env name with
  | some v => (.value ⟨v, l.meant s.store env name⟩ s, l)
  | none => (.error (.notDefined name) s, l)

def define (env : FrameId) (name : String) (v : Sourced) : Tracked ε Sourced := fun l s =>
  (.value v { s with store := s.store.define env name v.value }, l.bind env name v.source)

def defineAll (env : FrameId) : List (String × Sourced) → Tracked ε Unit
  | [] => pure ()
  | (name, v) :: rest => do
    let _ ← define env name v
    defineAll env rest

def assign (env : FrameId) (name : String) (v : Sourced) : Tracked RunError Sourced := fun l s =>
  match s.store.owner? env name with
  | some f => define f name v l s
  | none => (.error (.notDefined name) s, l)

/-- The evaluation with number `n` makes an object. -/
def newObject (n : Nat) (role : Role) (parent : Option FrameId) : Tracked ε FrameId := do
  let frame ← lift (Action.newFrame role parent)
  makes ⟨.object frame, some n⟩
  pure frame

/-- The evaluation with number `n` makes a closure. -/
def newClosure (n : Nat) (c : Closure) : Tracked ε ClosureId := do
  let id ← lift (Action.newClosure c)
  makes ⟨.proc id, some n⟩
  pure id

end Tracked

/-! ## Tracked evaluation -/

abbrev Tracker := Datum → FrameId → Tracked RunError Sourced

namespace Tracker

def block (eval : Tracker) (env : FrameId) (last : Sourced) :
    List Datum → Tracked RunError Sourced
  | [] => pure last
  | d :: ds => do
    let v ← eval d env
    block eval env v ds

def values (eval : Tracker) (env : FrameId) : List Datum → Tracked RunError (List Sourced)
  | [] => pure []
  | d :: ds => do
    let v ← eval d env
    let vs ← values eval env ds
    pure (v :: vs)

def body (eval : Tracker) (env : FrameId) : Datum → Tracked RunError Sourced
  | .list (.symbol "begin" :: ds) => block eval env (.plain .unit) ds
  | d => eval d env

def loop (eval : Tracker) (env : FrameId) (condition body : Datum) :
    (limit : Nat) → (last : Sourced) → Tracked RunError Sourced
  | 0, _ => .lift .spent
  | limit + 1, last => do
    let test ← eval condition env
    if test.value.truth then
      let v ← eval body env
      loop eval env condition body limit v
    else pure last

def callClosure (eval : Tracker) (callee : String) (c : Closure) (args : List Sourced) :
    Tracked RunError Sourced :=
  if args.length = c.params.length then do
    let frame ← .lift (Action.newFrame .call (some c.scope))
    Tracked.defineAll frame (c.params.zip args)
    eval.body frame c.body
  else .fail (.wrongCount callee c.params.length args.length)

def callProc (eval : Tracker) (callee : String) (id : ClosureId) (args : List Sourced) :
    Tracked RunError Sourced := do
  match ← .lift (Action.closure? id) with
  | some c => eval.callClosure callee c args
  | none => .fail (.notDefined callee)

/-- The native procedures see no sources, and what they yield has none. -/
def call (eval : Tracker) (head : Datum) (callee : Sourced) (args : List Sourced) :
    Tracked RunError Sourced :=
  match callee.value with
  | .native op => do
    let v ← .lift (op.call (args.map (·.value)))
    pure (.plain v)
  | .proc id => eval.callProc head.text id args
  | v => .fail (.uncallable head v.kind)

end Tracker

namespace Tracked

open Tracker

/-- What each form does in the evaluation with number `n`. -/
def evalForm (limit : Nat) (eval : Tracker) (n : Nat) (env : FrameId) :
    Form → Tracked RunError Sourced
  | .number x => pure (.plain (.number x))
  | .str text => pure (.plain (.str text))
  | .reference name => lookup env name
  | .declare name value => do
    let v ← eval value env
    define env name v
  | .assign name value => do
    let v ← eval value env
    assign env name v
  | .setProperty object name value => do
    let o ← eval object env
    let frame ← lift (.ofExcept (o.value.asObject "set"))
    let name ← lift (.ofExcept (Form.nameIn "prop" name))
    let v ← eval value env
    define frame name v
  | .property object name => do
    let o ← eval object env
    let frame ← lift (.ofExcept (o.value.asObject "prop"))
    let name ← lift (.ofExcept (Form.nameIn "prop" name))
    lookup frame name
  | .block ds => do
    let frame ← lift (Action.newFrame .block (some env))
    block eval frame (.plain .unit) ds
  | .branch condition consequence alternative => do
    let test ← eval condition env
    eval (if test.value.truth then consequence else alternative) env
  | .loop condition d => loop eval env condition d limit (.plain .unit)
  | .closure params d => do
    let id ← newClosure n { params, body := d, scope := env }
    pure ⟨.proc id, some n⟩
  | .classDef name base d => do
    let b ← eval base env
    let base ← lift (.ofExcept b.value.asBase)
    let frame ← newObject n (.classBody base) (some (base.getD env))
    let _ ← body eval frame d
    define env name ⟨.object frame, some n⟩
  | .instantiate cls args => do
    let c ← eval cls env
    let cls ← lift (.ofExcept (c.value.asObject "new"))
    let frame ← newObject n (.instanceOf cls) (some cls)
    let vs ← values eval env args
    let constructor ← lookup cls "constructor"
    match constructor.value with
    | .proc id =>
      let _ ← callProc eval "constructor" id (⟨.object frame, some n⟩ :: vs)
      pure ⟨.object frame, some n⟩
    | v => fail (.typeError "new" .proc v.kind)
  | .call head args => do
    let callee ← eval head env
    let vs ← values eval env args
    call eval head callee vs
  | .expand d => eval d env

end Tracked

namespace Tracker

/-- Every evaluation gets its number when it begins, and is accounted for when it ends with a
value. -/
def evalDatum (limit : Nat) (eval : Tracker) : Tracker := fun d env => do
  let n ← Tracked.begins d
  match Form.ofDatum d with
  | .ok form =>
    let v ← Tracked.evalForm limit eval n env form
    Tracked.ends n v
    pure v
  | .error e => .fail e

def eval : (fuel : Nat) → Tracker
  | 0 => fun _ _ => .lift .spent
  | fuel + 1 => evalDatum fuel (eval fuel)

end Tracker

namespace Tracked

def evalGlobal (fuel : Nat) (i : Interpreter) (d : Datum) : Tracked RunError Sourced := do
  lift (Action.log .debug d.text)
  (Tracker.eval fuel).body i.globalFrame d

def evalProgram (fuel : Nat) (i : Interpreter) (last : Sourced) :
    List Datum → Tracked RunError Sourced
  | [] => pure last
  | d :: ds => do
    let v ← evalGlobal fuel i d
    evalProgram fuel i v ds

def run (fuel : Nat) (i : Interpreter) (code : String) : Tracked ProgramError Sourced :=
  match Datum.readText code with
  | .error e => fail (.read e)
  | .ok ds => (evalProgram fuel i (.plain .unit) ds).mapError .run

def evalScript (fuel : Nat) (i : Interpreter) : List Datum → Tracked ScriptError Nat
  | [] => pure 0
  | d :: ds => do
    match ← (evalGlobal fuel i d).attempt with
    | .ok _ => evalScript fuel i ds
    | .error e =>
      lift (Action.log .warning "an error ocurred:")
      lift (Action.log .warning d.text)
      lift (Action.log .warning e.message)
      let failed ← evalScript fuel i ds
      pure (failed + 1)

def runScript (fuel : Nat) (i : Interpreter) (script : Script) : Tracked ScriptError Unit := do
  lift (Action.log .info ("running " ++ Text.quote script.path ++ "..."))
  let code ← (lift (.ofExcept script.content)).mapError .source
  let ds ← (lift (.ofExcept (Datum.readText code))).mapError .read
  let failed ← evalScript fuel i ds
  lift (Action.log .info
    ("run_file: done (" ++ Nat.repr ds.length ++ " forms, " ++ Nat.repr failed ++ " failed)"))

def serve (fuel : Nat) (i : Interpreter) : Request → Tracked RequestError Sourced
  | .run code => (run fuel i code).mapError .program
  | .runScript script => (runScript fuel i script >>= fun _ => pure (.plain .unit)).mapError .script
  | .eval d => (Tracker.eval fuel d i.globalFrame).mapError .form
  | .evalGlobal d => (evalGlobal fuel i d).mapError .form
  | .evalIn d env => (Tracker.eval fuel d env).mapError .form
  | .evalBody d env => ((Tracker.eval fuel).body env d).mapError .form

end Tracked

/-! ## Without the account -/

/-- The outcome with `f` of its value. -/
def Outcome.map {ε α β : Type} (f : α → β) : Outcome ε α → Outcome ε β
  | value a s => value (f a) s
  | error e s => error e s
  | unfinished => unfinished

/-- Without the account `x` does what `y` does, and `f` takes its value to that of `y`. -/
def Tracked.Erases {ε α β : Type} (f : α → β) (x : Tracked ε α) (y : Action ε β) : Prop :=
  ∀ l s, (x l s).1.map f = y s

/-- Only keeps the account. -/
def Tracked.Silent {ε α : Type} (x : Tracked ε α) : Prop := ∀ l s, ∃ a m, x l s = (.value a s, m)

namespace Tracked.Erases

variable {ε δ α β γ η : Type} {f : α → β} {g : γ → η} {x : Tracked ε α} {y : Action ε β}

theorem pure (a : α) : Erases f (pure a : Tracked ε α) (pure (f a)) := fun _ _ => rfl

theorem lift (x : Action ε α) : Erases id (lift x) x := by
  intro l s
  show (x s).map id = x s
  cases x s <;> rfl

theorem fail (e : ε) : Erases f (fail e) (.fail e) := fun _ _ => rfl

theorem spent : Erases f (Tracked.lift .spent : Tracked ε α) .spent := fun _ _ => rfl

theorem bind {h : α → Tracked ε γ} {k : β → Action ε η} (hx : Erases f x y)
    (hh : ∀ a, Erases g (h a) (k (f a))) : Erases g (x >>= h) (y >>= k) := by
  intro l s
  rw [bind_apply, Action.bind_apply, ← hx l s]
  rcases x l s with ⟨a | e | _, m⟩
  · exact hh a m _
  · rfl
  · rfl

theorem bind_of_silent {h : α → Tracked ε γ} {y : Action ε η} (hx : x.Silent)
    (hh : ∀ a, Erases g (h a) y) : Erases g (x >>= h) y := by
  intro l s
  obtain ⟨a, m, hxl⟩ := hx l s
  rw [bind_apply, hxl]
  exact hh a m s

theorem attempt (hx : Erases f x y) :
    Erases (Except.map f) (x.attempt : Tracked δ (Except ε α)) y.attempt := by
  intro l s
  unfold Tracked.attempt Action.attempt
  rw [← hx l s]
  rcases x l s with ⟨_ | _ | _, _⟩ <;> rfl

theorem mapError {r : ε → δ} (hx : Erases f x y) : Erases f (x.mapError r) (y.mapError r) := by
  intro l s
  unfold Tracked.mapError Action.mapError
  rw [← hx l s]
  rcases x l s with ⟨_ | _ | _, _⟩ <;> rfl

theorem lookup (env : FrameId) (name : String) :
    Erases Sourced.value (lookup env name) (.lookup env name) := by
  intro l s
  unfold Tracked.lookup Action.lookup
  cases s.store.lookup? env name <;> rfl

theorem define (env : FrameId) (name : String) (v : Sourced) :
    Erases Sourced.value (define env name v : Tracked ε Sourced) (.define env name v.value) :=
  fun _ _ => rfl

theorem defineAll (env : FrameId) (names : List String) (vs : List Sourced) :
    Erases id (defineAll env (names.zip vs) : Tracked ε Unit)
      (.defineAll env (names.zip (vs.map (·.value)))) := by
  induction names generalizing vs with
  | nil => exact .pure ()
  | cons name names ih =>
    cases vs with
    | nil => exact .pure ()
    | cons v vs => exact .bind (.define env name v) fun _ => ih vs

theorem assign (env : FrameId) (name : String) (v : Sourced) :
    Erases Sourced.value (assign env name v) (.assign env name v.value) := by
  intro l s
  unfold Tracked.assign Action.assign
  cases s.store.owner? env name <;> rfl

theorem newObject (n : Nat) (role : Role) (parent : Option FrameId) :
    Erases id (newObject n role parent : Tracked ε FrameId) (.newFrame role parent) :=
  fun _ _ => rfl

theorem newClosure (n : Nat) (c : Closure) :
    Erases id (newClosure n c : Tracked ε ClosureId) (.newClosure c) := fun _ _ => rfl

end Tracked.Erases

open Tracked (Erases)

/-- Without the account the tracker is the evaluator. -/
def Tracker.Follows (track : Tracker) (eval : Evaluator) : Prop :=
  ∀ d env, Erases Sourced.value (track d env) (eval d env)

namespace Tracker.Follows

variable {track : Tracker} {eval : Evaluator}

theorem block (h : track.Follows eval) (env : FrameId) (last : Sourced) (ds : List Datum) :
    Erases Sourced.value (track.block env last ds) (eval.block env last.value ds) := by
  induction ds generalizing last with
  | nil => exact .pure last
  | cons d ds ih => exact .bind (h d env) fun v => ih v

theorem values (h : track.Follows eval) (env : FrameId) (ds : List Datum) :
    Erases (List.map Sourced.value) (track.values env ds) (eval.values env ds) := by
  induction ds with
  | nil => exact .pure []
  | cons d ds ih => exact .bind (h d env) fun v => .bind ih fun vs => .pure (v :: vs)

theorem body (h : track.Follows eval) (env : FrameId) (d : Datum) :
    Erases Sourced.value (track.body env d) (eval.body env d) := by
  unfold Tracker.body
  split
  · exact h.block env (.plain .unit) _
  · next hbegin =>
    unfold Evaluator.body
    split
    · exact absurd rfl (hbegin _)
    · exact h d env

theorem loop (h : track.Follows eval) (env : FrameId) (condition d : Datum) (limit : Nat)
    (last : Sourced) :
    Erases Sourced.value (track.loop env condition d limit last)
      (eval.loop env condition d limit last.value) := by
  induction limit generalizing last with
  | zero => exact .spent
  | succ limit ih =>
    refine .bind (h condition env) fun test => ?_
    split
    · exact .bind (h d env) fun v => ih v
    · exact .pure last

theorem callClosure (h : track.Follows eval) (callee : String) (c : Closure) (args : List Sourced) :
    Erases Sourced.value (track.callClosure callee c args)
      (eval.callClosure callee c (args.map Sourced.value)) := by
  unfold Tracker.callClosure Evaluator.callClosure
  rw [List.length_map]
  split
  · exact .bind (.lift _) fun frame => .bind (.defineAll frame c.params args) fun _ =>
      h.body frame c.body
  · exact .fail _

theorem callProc (h : track.Follows eval) (callee : String) (id : ClosureId) (args : List Sourced) :
    Erases Sourced.value (track.callProc callee id args)
      (eval.callProc callee id (args.map Sourced.value)) := by
  refine .bind (.lift _) fun c => ?_
  cases c with
  | none => exact .fail _
  | some c => exact h.callClosure callee c args

theorem call (h : track.Follows eval) (head : Datum) (callee : Sourced) (args : List Sourced) :
    Erases Sourced.value (track.call head callee args)
      (eval.call head callee.value (args.map Sourced.value)) := by
  unfold Tracker.call Evaluator.call
  cases callee.value with
  | native op =>
    have hcall : Erases Sourced.value
        (Tracked.lift (op.call (args.map Sourced.value)) >>= fun v => pure (.plain v))
        (op.call (args.map Sourced.value) >>= pure) := .bind (.lift _) fun v => .pure _
    rwa [bind_pure] at hcall
  | proc id => exact h.callProc head.text id args
  | _ => exact .fail _

theorem evalForm (h : track.Follows eval) (limit n : Nat) (env : FrameId) (form : Form) :
    Erases Sourced.value (Tracked.evalForm limit track n env form)
      (evalForm limit eval env form) := by
  cases form with
  | number x => exact .pure _
  | str text => exact .pure _
  | reference name => exact .lookup env name
  | declare name value =>
    exact .bind (h _ _) fun v => .define env name v
  | assign name value =>
    exact .bind (h _ _) fun v => .assign env name v
  | setProperty object name value =>
    exact .bind (h _ _) fun o => .bind (.lift _) fun frame => .bind (.lift _) fun name =>
      .bind (h _ _) fun v => .define frame name v
  | property object name =>
    exact .bind (h _ _) fun o => .bind (.lift _) fun frame => .bind (.lift _) fun name =>
      .lookup frame name
  | block ds => exact .bind (.lift _) fun frame => h.block frame (.plain .unit) ds
  | branch condition consequence alternative => exact .bind (h _ _) fun test => h _ _
  | loop condition d => exact h.loop env condition d limit (.plain .unit)
  | closure params d => exact .bind (.newClosure n _) fun id => .pure _
  | classDef name base d =>
    exact .bind (h _ _) fun b => .bind (.lift _) fun base => .bind (.newObject n _ _) fun frame =>
      .bind (h.body frame d) fun _ => .define env name ⟨.object frame, some n⟩
  | instantiate cls args =>
    refine .bind (h _ _) fun c => .bind (.lift _) fun cls => .bind (.newObject n _ _) fun frame =>
      .bind (h.values env args) fun vs => .bind (.lookup cls "constructor") fun constructor => ?_
    cases constructor.value with
    | proc id =>
      exact .bind (h.callProc "constructor" id (⟨.object frame, some n⟩ :: vs)) fun _ => .pure _
    | _ => exact .fail _
  | call head args =>
    exact .bind (h _ _) fun callee => .bind (h.values env args) fun vs => h.call head callee vs
  | expand d => exact h d env

theorem evalDatum (h : track.Follows eval) (limit : Nat) :
    (Tracker.evalDatum limit track).Follows (ScopeLisp.evalDatum limit eval) := by
  intro d env
  refine .bind_of_silent (fun _ _ => ⟨_, _, rfl⟩) fun n => ?_
  unfold ScopeLisp.evalDatum
  cases Form.ofDatum d with
  | ok form =>
    have hform : Erases Sourced.value
        (Tracked.evalForm limit track n env form >>= fun v => Tracked.ends n v >>= fun _ => pure v)
        (ScopeLisp.evalForm limit eval env form >>= pure) :=
      .bind (h.evalForm limit n env form) fun v =>
        .bind_of_silent (fun _ _ => ⟨_, _, rfl⟩) fun _ => .pure v
    rwa [bind_pure] at hform
  | error e => exact .fail e

end Tracker.Follows

/-- **Tracking changes nothing.** -/
theorem Tracker.eval_erases (fuel : Nat) : (Tracker.eval fuel).Follows (ScopeLisp.eval fuel) := by
  induction fuel with
  | zero => exact fun d env => .spent
  | succ fuel ih => exact ih.evalDatum fuel

namespace Tracked.Erases

variable {i : Interpreter}

theorem evalGlobal (fuel : Nat) (d : Datum) :
    Erases Sourced.value (evalGlobal fuel i d) (i.evalGlobal fuel d) :=
  .bind (.lift _) fun _ => (Tracker.eval_erases fuel).body i.globalFrame d

theorem evalProgram (fuel : Nat) (last : Sourced) (ds : List Datum) :
    Erases Sourced.value (evalProgram fuel i last ds) (i.evalProgram fuel last.value ds) := by
  induction ds generalizing last with
  | nil => exact .pure last
  | cons d ds ih => exact .bind (evalGlobal fuel d) fun v => ih v

theorem run (fuel : Nat) (code : String) :
    Erases Sourced.value (run fuel i code) (i.run fuel code) := by
  unfold Tracked.run Interpreter.run
  cases Datum.readText code with
  | error e => exact .fail _
  | ok ds => exact .mapError (evalProgram fuel (.plain .unit) ds)

theorem evalScript (fuel : Nat) (ds : List Datum) :
    Erases id (evalScript fuel i ds) (i.evalScript fuel ds) := by
  induction ds with
  | nil => exact .pure 0
  | cons d ds ih =>
    refine .bind (.attempt (evalGlobal fuel d)) fun r => ?_
    cases r with
    | ok v => exact ih
    | error e =>
      exact .bind (.lift _) fun _ => .bind (.lift _) fun _ => .bind (.lift _) fun _ =>
        .bind ih fun failed => .pure _

theorem runScript (fuel : Nat) (script : Script) :
    Erases id (runScript fuel i script) (i.runScript fuel script) :=
  .bind (.lift _) fun _ => .bind (.mapError (.lift _)) fun _ => .bind (.mapError (.lift _)) fun ds =>
    .bind (evalScript fuel ds) fun _ => .lift _

theorem serve (fuel : Nat) (request : Request) :
    Erases Sourced.value (serve fuel i request) (i.serve fuel request) := by
  cases request with
  | run code => exact .mapError (run fuel code)
  | runScript script => exact .mapError (.bind (runScript fuel script) fun _ => .pure _)
  | eval d => exact .mapError (Tracker.eval_erases fuel d i.globalFrame)
  | evalGlobal d => exact .mapError (evalGlobal fuel d)
  | evalIn d env => exact .mapError (Tracker.eval_erases fuel d env)
  | evalBody d env => exact .mapError ((Tracker.eval_erases fuel).body env d)

end Tracked.Erases

/-! ## Tracked sessions -/

/-- A session with its account. -/
structure TrackedSession where
  state : State
  ledger : Ledger := {}
  answers : List Sourced := []

namespace TrackedSession

def session (s : TrackedSession) : Session := ⟨s.state, s.answers.map Sourced.value⟩

inductive Next (i : Interpreter) (s : TrackedSession) : TrackedSession → Prop
  | answered {fuel : Nat} {request : Request} {v : Sourced} {t : State} {l : Ledger}
      (hframe : request.frame i < s.state.store.frames.size)
      (hrun : Tracked.serve fuel i request s.ledger s.state = (.value v t, l)) :
      Next i s ⟨t, l, v :: s.answers⟩
  | failed {fuel : Nat} {request : Request} {e : RequestError} {t : State} {l : Ledger}
      (hframe : request.frame i < s.state.store.frames.size)
      (hrun : Tracked.serve fuel i request s.ledger s.state = (.error e t, l)) :
      Next i s ⟨t, l, s.answers⟩

/-- The account of a new interpreter is empty. -/
def Reached (i : Interpreter) (s : TrackedSession) : Prop :=
  ∃ state, Session.Starts i ⟨state, []⟩ ∧ Relation.ReflTransGen (Next i) ⟨state, {}, []⟩ s

variable {i : Interpreter} {s t : TrackedSession}

theorem Next.session (h : Next i s t) : Session.Next i s.session t.session := by
  cases h with
  | @answered fuel request v u l hframe hrun =>
    have herases := Tracked.Erases.serve (i := i) fuel request s.ledger s.state
    rw [hrun] at herases
    exact .answered hframe herases.symm
  | @failed fuel request e u l hframe hrun =>
    have herases := Tracked.Erases.serve (i := i) fuel request s.ledger s.state
    rw [hrun] at herases
    exact .failed hframe herases.symm

theorem exists_next {u : Session} (h : Session.Next i s.session u) :
    ∃ t, Next i s t ∧ t.session = u := by
  cases h with
  | @answered fuel request w u hframe hrun =>
    have herases := Tracked.Erases.serve (i := i) fuel request s.ledger s.state
    rw [show i.serve fuel request s.state = .value w u from hrun] at herases
    rcases hserve : Tracked.serve fuel i request s.ledger s.state with ⟨v | e | _, l⟩
    all_goals rw [hserve] at herases; cases herases
    exact ⟨_, .answered hframe hserve, rfl⟩
  | @failed fuel request e u hframe hrun =>
    have herases := Tracked.Erases.serve (i := i) fuel request s.ledger s.state
    rw [show i.serve fuel request s.state = .error e u from hrun] at herases
    rcases hserve : Tracked.serve fuel i request s.ledger s.state with ⟨v | e | _, l⟩
    all_goals rw [hserve] at herases; cases herases
    exact ⟨_, .failed hframe hserve, rfl⟩

end TrackedSession

/-- **The tracked sessions are the sessions.** -/
theorem Session.reached_iff_exists_tracked {i : Interpreter} {s : Session} :
    Reached i s ↔ ∃ t, TrackedSession.Reached i t ∧ t.session = s := by
  constructor
  · rintro ⟨start, hstart, hlater⟩
    induction hlater with
    | refl =>
      obtain ⟨console, hfresh, hanswers⟩ := hstart
      refine ⟨⟨start.state, {}, []⟩, ⟨start.state, ⟨console, hfresh, rfl⟩, .refl⟩, ?_⟩
      cases start
      cases hanswers
      rfl
    | tail _ hnext ih =>
      obtain ⟨t, ⟨state, hstate, hlater⟩, rfl⟩ := ih
      obtain ⟨u, hu, rfl⟩ := TrackedSession.exists_next hnext
      exact ⟨u, ⟨state, hstate, hlater.tail hu⟩, rfl⟩
  · rintro ⟨t, ⟨state, hstate, hlater⟩, rfl⟩
    refine ⟨_, hstate, ?_⟩
    induction hlater with
    | refl => exact .refl
    | tail _ hnext ih => exact ih.tail hnext.session

end ScopeLisp

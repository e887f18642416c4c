import ScopeLisp.Proofs.Agreement
import ScopeLisp.Script

/-!
# The console is only written

What a run prints and logs does not depend on what is on the console before it: it comes out as on a
blank console, and then stands behind what was there (`Action.WriteOnly`). Only whether debug lines
are wanted matters, and no run changes that. Evaluating a form does not log at all
(`eval_writeOnly`, where `logs` is false); what is logged about a form is logged by the interpreter
(`Interpreter.evalGlobal_apply`). Main statements: programs and scripts write only
(`Interpreter.run_writeOnly`, `Interpreter.runScript_writeOnly`).
-/

namespace ScopeLisp

/-- A console with the same setting on which nothing has been written. -/
def Console.blank (c : Console) : Console := { debug := c.debug }

variable {ε δ α β : Type} {logs : Bool}

/-- The state when what was written in it stands behind `c`. What was logged is left out unless
`logs`. -/
def State.onto (logs : Bool) (c : Console) (s : State) : State :=
  ⟨s.store, c.extend s.console.out (if logs then s.console.err else "")⟩

@[simp] theorem State.onto_blank (s : Store) (c : Console) :
    (⟨s, c.blank⟩ : State).onto logs c = ⟨s, c⟩ := by
  cases logs <;> exact congrArg (State.mk s) c.extend_empty

theorem State.onto_onto (s t : State) (c : Console) :
    (t.onto logs s.console).onto logs c = t.onto logs (s.onto logs c).console := by
  cases logs <;> simp [onto, Console.extend, String.append_assoc]

namespace Outcome

/-- The outcome with another state left. -/
def mapAfter (f : State → State) : Outcome ε α → Outcome ε α
  | value a s => value a (f s)
  | error e s => error e (f s)
  | unfinished => unfinished

theorem mapAfter_congr {f g : State → State} {o : Outcome ε α}
    (h : ∀ s, o.after? = some s → f s = g s) : o.mapAfter f = o.mapAfter g := by
  cases o with
  | value a s => exact congrArg (value a) (h s rfl)
  | error e s => exact congrArg (error e) (h s rfl)
  | unfinished => rfl

theorem mapAfter_mapAfter (f g : State → State) (o : Outcome ε α) :
    (o.mapAfter f).mapAfter g = o.mapAfter (g ∘ f) := by
  cases o <;> rfl

theorem exists_of_after?_mapAfter {f : State → State} {o : Outcome ε α} {t : State}
    (h : (o.mapAfter f).after? = some t) : ∃ s, o.after? = some s ∧ f s = t := by
  cases o with
  | value a s => exact ⟨s, rfl, Option.some.inj h⟩
  | error e s => exact ⟨s, rfl, Option.some.inj h⟩
  | unfinished => cases h

end Outcome

/-- On every console the action comes out as on a blank one, and what it writes there stands behind
what was written before. If `logs` is false then it does not log. -/
def Action.WriteOnly (logs : Bool) (x : Action ε α) : Prop :=
  ∀ s c, x ⟨s, c⟩ = (x ⟨s, c.blank⟩).mapAfter (State.onto logs c)

namespace Action.WriteOnly

/-! ## Rules of the combinators -/

theorem pure (a : α) : WriteOnly logs (pure a : Action ε α) := by
  intro s c
  simp only [pure_apply, Outcome.mapAfter, State.onto_blank]

theorem fail (e : ε) : WriteOnly logs (fail e : Action ε α) := by
  intro s c
  simp only [Action.fail, Outcome.mapAfter, State.onto_blank]

theorem spent : WriteOnly logs (spent : Action ε α) := fun _ _ => rfl

theorem ofExcept (r : Except ε α) : WriteOnly logs (ofExcept r) := by
  cases r with
  | ok a => exact pure a
  | error e => exact fail e

/-- Whether debug lines are wanted stays as it is. -/
theorem debug_eq {x : Action ε α} (h : WriteOnly logs x) {s : State} {t : State}
    (hx : (x s).after? = some t) : t.console.debug = s.console.debug := by
  rw [h s.store s.console] at hx
  obtain ⟨u, -, rfl⟩ := Outcome.exists_of_after?_mapAfter hx
  rfl

/-- An action that does not log leaves the log as it is. -/
theorem err_eq {x : Action ε α} (h : WriteOnly false x) {s : State} {t : State}
    (hx : (x s).after? = some t) : t.console.err = s.console.err := by
  rw [h s.store s.console] at hx
  obtain ⟨u, -, rfl⟩ := Outcome.exists_of_after?_mapAfter hx
  exact String.append_empty

theorem bind {x : Action ε α} {f : α → Action ε β} (h : WriteOnly logs x)
    (hf : ∀ a, WriteOnly logs (f a)) : WriteOnly logs (x >>= f) := by
  intro s c
  rw [bind_apply, bind_apply, h s c]
  cases hx : x ⟨s, c.blank⟩ with
  | value a t =>
    have hdebug : t.console.debug = c.debug := h.debug_eq (congrArg Outcome.after? hx)
    have hblank : (t.onto logs c).console.blank = t.console.blank :=
      congrArg (fun d => ({ debug := d } : Console)) hdebug.symm
    -- The second action writes behind both what was there and what the first one wrote.
    have honto : State.onto logs (t.onto logs c).console =
        State.onto logs c ∘ State.onto logs t.console :=
      funext fun u => (State.onto_onto t u c).symm
    calc f a (t.onto logs c)
      _ = (f a ⟨t.store, (t.onto logs c).console.blank⟩).mapAfter
            (State.onto logs (t.onto logs c).console) := hf a _ _
      _ = ((f a ⟨t.store, t.console.blank⟩).mapAfter (State.onto logs t.console)).mapAfter
            (State.onto logs c) := by rw [hblank, honto, Outcome.mapAfter_mapAfter]
      _ = (f a t).mapAfter (State.onto logs c) := by rw [← hf a t.store t.console]
  | error e t => rfl
  | unfinished => rfl

theorem attempt {x : Action ε α} (h : WriteOnly logs x) :
    WriteOnly logs (attempt x : Action δ (Except ε α)) := by
  intro s c
  unfold Action.attempt
  rw [h s c]
  cases x ⟨s, c.blank⟩ <;> rfl

theorem mapError {x : Action ε α} (h : WriteOnly logs x) (f : ε → δ) :
    WriteOnly logs (x.mapError f) := by
  intro s c
  unfold Action.mapError
  rw [h s c]
  cases x ⟨s, c.blank⟩ <;> rfl

/-- What does not log writes only, also where logging is allowed. -/
theorem mono {x : Action ε α} (h : WriteOnly false x) : WriteOnly logs x := by
  intro s c
  rw [h s c]
  refine Outcome.mapAfter_congr fun t ht => ?_
  have herr : t.console.err = "" := h.err_eq ht
  cases logs <;> simp [State.onto, herr]

/-! ## Reads and writes -/

section

variable {env f : FrameId} {name : String} {v : Value}

theorem lookup : WriteOnly logs (lookup env name) := by
  intro s c
  unfold Action.lookup
  cases s.lookup? env name <;> simp only [Outcome.mapAfter, State.onto_blank]

theorem define : WriteOnly logs (define f name v : Action ε Value) := by
  intro s c
  simp only [Action.define, Outcome.mapAfter, State.onto_blank]

theorem defineAll (entries : List (String × Value)) :
    WriteOnly logs (defineAll f entries : Action ε Unit) := by
  induction entries with
  | nil => exact pure ()
  | cons e entries ih => exact bind define fun _ => ih

theorem assign : WriteOnly logs (assign env name v) := by
  intro s c
  unfold Action.assign
  cases s.owner? env name with
  | some f => exact define s c
  | none => exact fail _ s c

theorem newFrame {role : Role} {parent : Option FrameId} :
    WriteOnly logs (newFrame role parent : Action ε FrameId) := by
  intro s c
  simp only [Action.newFrame, Outcome.mapAfter, State.onto_blank]

theorem newClosure {closure : Closure} :
    WriteOnly logs (newClosure closure : Action ε ClosureId) := by
  intro s c
  simp only [Action.newClosure, Outcome.mapAfter, State.onto_blank]

theorem closure? {id : ClosureId} :
    WriteOnly logs (closure? id : Action ε (Option Closure)) := by
  intro s c
  simp only [Action.closure?, Outcome.mapAfter, State.onto_blank]

theorem textOf : WriteOnly logs (textOf v : Action ε String) := by
  intro s c
  simp only [Action.textOf, Outcome.mapAfter, State.onto_blank]

theorem textsOf {vs : List Value} : WriteOnly logs (textsOf vs : Action ε (List String)) := by
  intro s c
  simp only [Action.textsOf, Outcome.mapAfter, State.onto_blank]

end

theorem print (line : String) : WriteOnly logs (print line : Action ε Unit) := by
  intro s c
  cases logs <;> simp [Action.print, Outcome.mapAfter, State.onto, Console.print, Console.extend,
    Console.blank, String.append_assoc]

theorem log (level : Level) (line : String) :
    WriteOnly true (log level line : Action ε Unit) := by
  intro s c
  simp [Action.log, Console.log_eq, Outcome.mapAfter, State.onto, Console.extend, Console.blank]

theorem native (op : Native) (args : List Value) : WriteOnly logs (op.call args) := by
  have onTwo {op : Native} {f : Value → Value → Except RunError Value} {args : List Value} :
      WriteOnly logs (op.onTwo f args) := by
    unfold Native.onTwo
    split
    · exact ofExcept _
    · exact fail _
  cases op with
  | sub =>
    match args with
    | [] => exact fail _
    | [a] => exact ofExcept a.neg
    | a :: b :: args => exact @onTwo .sub Value.sub (a :: b :: args)
  | print => exact bind textsOf fun texts => bind (print _) fun _ => pure _
  | _ => exact onTwo

end Action.WriteOnly

/-! ## Evaluation -/

/-- Every datum is evaluated without logging, and without reading the console. -/
def Evaluator.WriteOnly (eval : Evaluator) : Prop :=
  ∀ d env, Action.WriteOnly false (eval d env)

namespace Evaluator.WriteOnly

variable {eval : Evaluator}

theorem block (h : Evaluator.WriteOnly eval) (env : FrameId) (last : Value) (ds : List Datum) :
    Action.WriteOnly false (eval.block env last ds) := by
  induction ds generalizing last with
  | nil => exact .pure last
  | cons d ds ih => exact .bind (h d env) fun v => ih v

theorem values (h : Evaluator.WriteOnly eval) (env : FrameId) (ds : List Datum) :
    Action.WriteOnly false (eval.values env ds) := by
  induction ds with
  | nil => exact .pure []
  | cons d ds ih => exact .bind (h d env) fun v => .bind ih fun vs => .pure _

theorem body (h : Evaluator.WriteOnly eval) (env : FrameId) (d : Datum) :
    Action.WriteOnly false (eval.body env d) := by
  unfold Evaluator.body
  split
  · exact h.block env .unit _
  · exact h d env

theorem loop (h : Evaluator.WriteOnly eval) (env : FrameId) (condition d : Datum) (limit : Nat)
    (last : Value) : Action.WriteOnly false (eval.loop env condition d limit last) := by
  induction limit generalizing last with
  | zero => exact .spent
  | succ limit ih =>
    refine .bind (h condition env) fun test => ?_
    split
    · exact .bind (h d env) fun v => ih v
    · exact .pure last

theorem callProc (h : Evaluator.WriteOnly eval) (callee : String) (id : ClosureId)
    (args : List Value) : Action.WriteOnly false (eval.callProc callee id args) := by
  refine .bind .closure? fun c => ?_
  cases c with
  | none => exact .fail _
  | some c =>
    simp only [Evaluator.callClosure]
    split
    · exact .bind .newFrame fun frame => .bind (.defineAll _) fun _ => h.body frame c.body
    · exact .fail _

theorem call (h : Evaluator.WriteOnly eval) (head : Datum) (callee : Value) (args : List Value) :
    Action.WriteOnly false (eval.call head callee args) := by
  cases callee with
  | native op => exact .native op args
  | proc id => exact h.callProc head.text id args
  | _ => exact .fail _

theorem evalForm (h : Evaluator.WriteOnly eval) (limit : Nat) (env : FrameId) (form : Form) :
    Action.WriteOnly false (evalForm limit eval env form) := by
  cases form with
  | number | str => exact .pure _
  | reference name => exact .lookup
  | declare name value => exact .bind (h _ _) fun v => .define
  | assign name value => exact .bind (h _ _) fun v => .assign
  | setProperty object name value =>
    exact .bind (h _ _) fun o => .bind (.ofExcept _) fun frame => .bind (.ofExcept _) fun name =>
      .bind (h _ _) fun v => .define
  | property object name =>
    exact .bind (h _ _) fun o => .bind (.ofExcept _) fun frame => .bind (.ofExcept _) fun name =>
      .lookup
  | block ds => exact .bind .newFrame fun frame => h.block frame .unit ds
  | branch condition consequence alternative => exact .bind (h _ _) fun test => h _ _
  | loop condition d => exact h.loop env condition d limit .unit
  | closure params d => exact .bind .newClosure fun id => .pure _
  | classDef name base d =>
    exact .bind (h _ _) fun b => .bind (.ofExcept _) fun base => .bind .newFrame fun frame =>
      .bind (h.body frame d) fun _ => .define
  | instantiate cls args =>
    refine .bind (h _ _) fun c => .bind (.ofExcept _) fun cls => .bind .newFrame fun frame =>
      .bind (h.values env args) fun vs => .bind .lookup fun constructor => ?_
    cases constructor with
    | proc id => exact .bind (h.callProc _ _ _) fun _ => .pure _
    | _ => exact .fail _
  | call head args =>
    exact .bind (h _ _) fun callee => .bind (h.values env args) fun vs => h.call head callee vs
  | expand d => exact h d env

theorem evalDatum (h : Evaluator.WriteOnly eval) (limit : Nat) :
    Evaluator.WriteOnly (evalDatum limit eval) := by
  intro d env
  unfold ScopeLisp.evalDatum
  split
  · exact h.evalForm limit env _
  · exact .fail _

end Evaluator.WriteOnly

theorem eval_writeOnly (fuel : Nat) : Evaluator.WriteOnly (eval fuel) := by
  induction fuel with
  | zero => exact fun d env => .spent
  | succ fuel ih => exact ih.evalDatum fuel

/-! ## Programs and scripts -/

namespace Interpreter

variable (fuel : Nat) (i : Interpreter)

theorem evalGlobal_writeOnly (d : Datum) : Action.WriteOnly true (i.evalGlobal fuel d) :=
  .bind (.log _ _) fun _ => ((eval_writeOnly fuel).body i.globalFrame d).mono

/-- A form of a program is evaluated as on a blank console, and what it prints stands behind what
was printed. Nothing is logged but the form itself, and that only if debug lines are wanted. -/
theorem evalGlobal_apply (d : Datum) (s : Store) (c : Console) :
    i.evalGlobal fuel d ⟨s, c⟩ =
      ((eval fuel).body i.globalFrame d ⟨s, c.blank⟩).mapAfter
        (State.onto false (c.log .debug d.text)) := by
  have hblank : (c.log .debug d.text).blank = c.blank := by rw [Console.log_eq]; rfl
  have hbody := (eval_writeOnly fuel).body i.globalFrame d s (c.log .debug d.text)
  rw [hblank] at hbody
  exact hbody

theorem evalProgram_writeOnly (last : Value) (ds : List Datum) :
    Action.WriteOnly true (i.evalProgram fuel last ds) := by
  induction ds generalizing last with
  | nil => exact .pure last
  | cons d ds ih => exact .bind (i.evalGlobal_writeOnly fuel d) fun v => ih v

theorem run_writeOnly (code : String) : Action.WriteOnly true (i.run fuel code) := by
  unfold run
  split
  · exact .fail _
  · exact (i.evalProgram_writeOnly fuel .unit _).mapError _

theorem evalScript_writeOnly (ds : List Datum) : Action.WriteOnly true (i.evalScript fuel ds) := by
  induction ds with
  | nil => exact .pure 0
  | cons d ds ih =>
    refine .bind (i.evalGlobal_writeOnly fuel d).attempt fun r => ?_
    cases r with
    | ok v => exact ih
    | error e =>
      exact .bind (.log _ _) fun _ => .bind (.log _ _) fun _ => .bind (.log _ _) fun _ =>
        .bind ih fun failed => .pure _

theorem runScript_writeOnly (script : Script) : Action.WriteOnly true (i.runScript fuel script) :=
  .bind (.log _ _) fun _ => .bind ((Action.WriteOnly.ofExcept _).mapError _) fun _ =>
    .bind ((Action.WriteOnly.ofExcept _).mapError _) fun ds =>
      .bind (i.evalScript_writeOnly fuel ds) fun _ => .log _ _

end Interpreter

end ScopeLisp

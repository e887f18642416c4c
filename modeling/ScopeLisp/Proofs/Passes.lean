import ScopeLisp.Proofs.Session
import ScopeLisp.Proofs.WriteOnly

/-!
# Passes

A pass evaluates the forms of a program in turn and goes on after errors (`Interpreter.pass?`). Its
steps tell what came of each form. A script and a program are two readings of the pass: a script
does all of it and logs which steps failed (`Interpreter.evalScript_of_pass?`), and a program does
it up to the first step that failed (`Interpreter.evalProgram_of_pass?_append`). Main statement:
`Interpreter.script_and_program_agree`.
-/

namespace ScopeLisp

/-- A form of a pass, and what came of it. -/
structure Step where
  form : Datum
  result : Except RunError Value
  after : State
deriving DecidableEq

namespace Step

def failed (x : Step) : Bool := !x.result.isOk

/-- What a script logs about a step. -/
def logged (debug : Bool) (x : Step) : String :=
  Console.logged debug .debug x.form.text ++
    match x.result with
    | .ok _ => ""
    | .error e =>
      Console.logged debug .warning "an error ocurred:" ++
        Console.logged debug .warning x.form.text ++ Console.logged debug .warning e.message

/-- Where steps from `s` have led to. -/
def last (s : State) (steps : List Step) : State := steps.foldl (fun _ x => x.after) s

end Step

/-- What is logged before a script is read. -/
def Script.opening (debug : Bool) (script : Script) : String :=
  Console.logged debug .info ("running " ++ Text.quote script.path ++ "...")

/-- What is logged after a script of so many forms of which so many failed. -/
def Script.closing (debug : Bool) (forms failed : Nat) : String :=
  Console.logged debug .info
    ("run_file: done (" ++ Nat.repr forms ++ " forms, " ++ Nat.repr failed ++ " failed)")

/-- Evaluates forms in the global frame in turn, whether or not there are errors. There are no steps
if one of the forms does not come to an end. -/
def Interpreter.pass? (fuel : Nat) (i : Interpreter) : List Datum → State → Option (List Step)
  | [], _ => some []
  | form :: forms, s => do
    let (result, after) ← (i.evalGlobal fuel form s).result?
    let steps ← i.pass? fuel forms after
    some ({ form, result, after } :: steps)

namespace Outcome

variable {ε α : Type} {o : Outcome ε α} {s : State}

theorem result?_eq_ok_iff {a : α} : o.result? = some (.ok a, s) ↔ o = .value a s := by
  cases o <;> simp [result?]

theorem result?_eq_error_iff {e : ε} : o.result? = some (.error e, s) ↔ o = .error e s := by
  cases o <;> simp [result?]

theorem after?_of_result? {r : Except ε α} (h : o.result? = some (r, s)) : o.after? = some s := by
  cases o <;> cases h <;> rfl

end Outcome

/-- The state with another log. -/
def State.withLog (s : State) (err : String) : State := ⟨s.store, { s.console with err }⟩

namespace Action

variable {ε δ α β : Type} {s t : State}

theorem log_withLog (s : State) (err : String) (level : Level) (line : String) :
    (log level line (s.withLog err) : Outcome ε Unit) =
      .value () (s.withLog (err ++ Console.logged s.console.debug level line)) := by
  simp [log, State.withLog, Console.log_eq, Console.extend]

theorem bind_eq_error_iff {x : Action ε α} {f : α → Action ε β} {e : ε} :
    (x >>= f) s = .error e t ↔
      x s = .error e t ∨ ∃ a u, x s = .value a u ∧ f a u = .error e t := by
  rw [bind_apply]
  cases x s <;> simp

theorem log_bind_apply (level : Level) (line : String) (f : Unit → Action ε α) (s : State) :
    (log level line >>= f) s = f () ⟨s.store, s.console.log level line⟩ := rfl

theorem attempt_ne_error (x : Action ε α) (e : δ) :
    (x.attempt : Action δ (Except ε α)) s ≠ .error e t := by
  unfold attempt
  cases x s <;> exact nofun

end Action

namespace Interpreter

variable {fuel : Nat} {i : Interpreter} {s : State} {form : Datum} {forms : List Datum}
  {steps : List Step}

/-- The log does not matter to a form. -/
theorem evalGlobal_withLog (fuel : Nat) (i : Interpreter) (form : Datum) (s : State)
    (err : String) :
    i.evalGlobal fuel form (s.withLog err) = (i.evalGlobal fuel form s).mapAfter
      (·.withLog (err ++ Console.logged s.console.debug .debug form.text)) := by
  have hs := i.evalGlobal_apply fuel form s.store s.console
  change i.evalGlobal fuel form s = _ at hs
  rw [hs, State.withLog, evalGlobal_apply, Outcome.mapAfter_mapAfter]
  refine Outcome.mapAfter_congr fun t _ => ?_
  simp [State.onto, State.withLog, Console.log_eq, Console.extend]

theorem pass?_cons_eq_some (h : i.pass? fuel (form :: forms) s = some steps) :
    ∃ result after rest, (i.evalGlobal fuel form s).result? = some (result, after) ∧
      i.pass? fuel forms after = some rest ∧ steps = ⟨form, result, after⟩ :: rest := by
  simp only [pass?, Option.bind_eq_bind, Option.bind_eq_some_iff] at h
  obtain ⟨⟨result, after⟩, hform, rest, hrest, hsteps⟩ := h
  exact ⟨result, after, rest, hform, hrest, (Option.some.inj hsteps).symm⟩

theorem map_form_of_pass? (h : i.pass? fuel forms s = some steps) :
    steps.map Step.form = forms := by
  induction forms generalizing s steps with
  | nil =>
    obtain rfl : [] = steps := Option.some.inj h
    rfl
  | cons form forms ih =>
    obtain ⟨result, after, rest, -, hrest, rfl⟩ := pass?_cons_eq_some h
    rw [List.map_cons, ih hrest]

theorem debug_last_of_pass? (h : i.pass? fuel forms s = some steps) :
    (Step.last s steps).console.debug = s.console.debug := by
  induction forms generalizing s steps with
  | nil =>
    obtain rfl : [] = steps := Option.some.inj h
    rfl
  | cons form forms ih =>
    obtain ⟨result, after, rest, hform, hrest, rfl⟩ := pass?_cons_eq_some h
    calc (Step.last after rest).console.debug
      _ = after.console.debug := ih hrest
      _ = s.console.debug :=
        (i.evalGlobal_writeOnly fuel form).debug_eq (Outcome.after?_of_result? hform)

/-- The first steps of a pass are a pass over the first forms. -/
theorem pass?_take {before rest : List Step} (h : i.pass? fuel forms s = some (before ++ rest)) :
    i.pass? fuel (forms.take before.length) s = some before := by
  induction before generalizing s forms with
  | nil => rfl
  | cons x before ih =>
    cases forms with
    | nil => cases h
    | cons form forms =>
      obtain ⟨result, after, steps, hform, hsteps, heq⟩ := pass?_cons_eq_some h
      obtain ⟨rfl, rfl⟩ := List.cons.inj heq
      rw [List.length_cons, List.take_succ_cons, pass?, hform]
      simp [ih hsteps]

/-! ## Scripts -/

/-- The forms of a script are evaluated as in a pass. The value is the number of the steps that
failed, and the log tells which. -/
theorem evalScript_of_pass? (h : i.pass? fuel forms s = some steps) (err : String) :
    i.evalScript fuel forms (s.withLog err) =
      .value (steps.countP Step.failed) ((Step.last s steps).withLog
        (err ++ String.join (steps.map (Step.logged s.console.debug)))) := by
  induction forms generalizing s steps err with
  | nil =>
    obtain rfl : [] = steps := Option.some.inj h
    simp [evalScript, Action.pure_apply, Step.last]
  | cons form forms ih =>
    obtain ⟨result, after, rest, hform, hrest, rfl⟩ := pass?_cons_eq_some h
    have hdebug : after.console.debug = s.console.debug :=
      (i.evalGlobal_writeOnly fuel form).debug_eq (Outcome.after?_of_result? hform)
    unfold evalScript
    rw [Action.bind_apply, Action.attempt, evalGlobal_withLog]
    cases result with
    | ok v =>
      rw [Outcome.result?_eq_ok_iff.1 hform]
      simp only [Outcome.mapAfter]
      rw [ih hrest, hdebug]
      simp [Step.failed, Except.isOk, Except.toBool, Step.last, Step.logged, String.append_assoc]
    | error e =>
      rw [Outcome.result?_eq_error_iff.1 hform]
      simp only [Outcome.mapAfter, Action.bind_apply, Action.log_withLog]
      rw [ih hrest, hdebug]
      simp [Action.pure_apply, Step.failed, Except.isOk, Except.toBool, Step.last, Step.logged,
        String.append_assoc]

/-- Up to the first step that fails, a script counts one failure. -/
theorem evalScript_take_of_failed {before after : List Step} {x : Step} {e : RunError}
    (h : i.pass? fuel forms s = some (before ++ x :: after))
    (hok : ∀ y ∈ before, y.failed = false) (hx : x.result = .error e) (err : String) :
    ∃ err', i.evalScript fuel (forms.take (before.length + 1)) (s.withLog err) =
      .value 1 (x.after.withLog err') := by
  rw [List.append_cons] at h
  have hpass := pass?_take h
  rw [List.length_append, List.length_singleton] at hpass
  have hcount : (before ++ [x]).countP Step.failed = 1 := by
    have hnone : before.countP Step.failed = 0 :=
      List.countP_eq_zero.2 fun y hy => by simp [hok y hy]
    simp [List.countP_append, hnone, Step.failed, hx, Except.isOk, Except.toBool]
  have hlast : Step.last s (before ++ [x]) = x.after := by simp [Step.last]
  have hscript := evalScript_of_pass? hpass err
  rw [hcount, hlast] at hscript
  exact ⟨_, hscript⟩

/-- Errors of forms do not end a script. -/
theorem evalScript_ne_error (fuel : Nat) (i : Interpreter) (forms : List Datum) (s : State)
    (e : ScriptError) (t : State) : i.evalScript fuel forms s ≠ .error e t := by
  induction forms generalizing s e t with
  | nil => exact nofun
  | cons form forms ih =>
    intro h
    obtain h | ⟨r, u, -, h⟩ := Action.bind_eq_error_iff.1 h
    · exact Action.attempt_ne_error _ _ h
    · cases r with
      | ok v => exact ih u e t h
      | error e' =>
        simp only [Action.log_bind_apply] at h
        obtain h | ⟨n, v, -, h⟩ := Action.bind_eq_error_iff.1 h
        · exact ih _ e t h
        · cases h

/-! ## Programs -/

/-- A program does what the pass does as long as no step fails. -/
theorem evalProgram_of_pass?_append {before rest : List Step}
    (h : i.pass? fuel forms s = some (before ++ rest)) (hok : ∀ x ∈ before, x.failed = false)
    (last : Value) :
    ∃ v forms', i.evalProgram fuel last forms s = i.evalProgram fuel v forms' (Step.last s before) ∧
      i.pass? fuel forms' (Step.last s before) = some rest := by
  induction before generalizing s forms last with
  | nil => exact ⟨last, forms, rfl, h⟩
  | cons x before ih =>
    obtain ⟨hx, hbefore⟩ := List.forall_mem_cons.1 hok
    cases forms with
    | nil => cases h
    | cons form forms =>
      obtain ⟨result, after, steps, hform, hsteps, heq⟩ := pass?_cons_eq_some h
      obtain ⟨rfl, rfl⟩ := List.cons.inj heq
      cases result with
      | error e => cases hx
      | ok v =>
        have hstep : i.evalProgram fuel last (form :: forms) s =
            i.evalProgram fuel v forms after := by
          rw [evalProgram, Action.bind_apply, Outcome.result?_eq_ok_iff.1 hform]
        rw [hstep]
        exact ih hsteps hbefore v

/-- A program without a step that fails is the pass. -/
theorem evalProgram_of_pass? (h : i.pass? fuel forms s = some steps)
    (hok : ∀ x ∈ steps, x.failed = false) (last : Value) :
    ∃ v, i.evalProgram fuel last forms s = .value v (Step.last s steps) := by
  rw [← List.append_nil steps] at h
  obtain ⟨v, forms', heq, hnil⟩ := evalProgram_of_pass?_append h hok last
  cases forms' with
  | nil => exact ⟨v, heq⟩
  | cons form forms =>
    obtain ⟨_, _, _, -, -, hsteps⟩ := pass?_cons_eq_some hnil
    cases hsteps

/-- A program ends where the first step that fails has led to. -/
theorem evalProgram_of_failed {before after : List Step} {x : Step} {e : RunError}
    (h : i.pass? fuel forms s = some (before ++ x :: after))
    (hok : ∀ y ∈ before, y.failed = false) (hx : x.result = .error e) (last : Value) :
    i.evalProgram fuel last forms s = .error e x.after := by
  obtain ⟨v, forms', heq, hrest⟩ := evalProgram_of_pass?_append h hok last
  cases forms' with
  | nil => cases hrest
  | cons form forms =>
    obtain ⟨result, t, steps, hform, -, hsteps⟩ := pass?_cons_eq_some hrest
    obtain ⟨rfl, rfl⟩ := List.cons.inj hsteps
    obtain rfl : result = .error e := hx
    rw [heq, evalProgram, Action.bind_apply, Outcome.result?_eq_error_iff.1 hform]

/-! ## Both on one text -/

variable {script : Script} {code : String}

/-- A script is announced before it is looked at. -/
theorem runScript_apply (fuel : Nat) (i : Interpreter) (script : Script) (s : State) :
    i.runScript fuel script s =
      (do
        let code ← (Action.ofExcept script.content).mapError .source
        let forms ← (Action.ofExcept (Datum.readText code)).mapError .read
        let failed ← i.evalScript fuel forms
        Action.log .info ("run_file: done (" ++ Nat.repr forms.length ++ " forms, " ++
          Nat.repr failed ++ " failed)") : Action ScriptError Unit)
        (s.withLog (s.console.err ++ script.opening s.console.debug)) := by
  unfold runScript
  rw [Action.log_bind_apply]
  have hopened : (⟨s.store, s.console.log .info ("running " ++ Text.quote script.path ++ "...")⟩ :
      State) = s.withLog (s.console.err ++ script.opening s.console.debug) := by
    simp [State.withLog, Script.opening, Console.log_eq, Console.extend]
  rw [hopened]

theorem runScript_of_source_error (fuel : Nat) (i : Interpreter) {e : SourceError}
    (h : script.content = .error e) (s : State) :
    i.runScript fuel script s =
      .error (.source e) (s.withLog (s.console.err ++ script.opening s.console.debug)) := by
  rw [runScript_apply, h]
  rfl

theorem runScript_of_read_error (fuel : Nat) (i : Interpreter) {e : ReadError}
    (h : script.content = .ok code) (hread : Datum.readText code = .error e) (s : State) :
    i.runScript fuel script s =
      .error (.read e) (s.withLog (s.console.err ++ script.opening s.console.debug)) := by
  rw [runScript_apply, h, Action.bind_apply]
  simp only [Action.ofExcept, Action.mapError, Action.pure_apply, Action.bind_apply, hread,
    Action.fail]

theorem runScript_of_pass? (h : script.content = .ok code) (hread : Datum.readText code = .ok forms)
    (hpass : i.pass? fuel forms s = some steps) :
    i.runScript fuel script s =
      .value () ((Step.last s steps).withLog (s.console.err ++ script.opening s.console.debug ++
        String.join (steps.map (Step.logged s.console.debug)) ++
        Script.closing s.console.debug forms.length (steps.countP Step.failed))) := by
  rw [runScript_apply, h, Action.bind_apply]
  simp only [Action.ofExcept, Action.mapError, Action.pure_apply, Action.bind_apply, hread,
    evalScript_of_pass? hpass, Action.log_withLog, debug_last_of_pass? hpass]
  rfl

/-- A script that fails has only been announced. -/
theorem withLog_of_runScript_error {e : ScriptError} {t : State}
    (h : i.runScript fuel script s = .error e t) :
    t = s.withLog (s.console.err ++ script.opening s.console.debug) := by
  cases hcontent : script.content with
  | error e' =>
    rw [runScript_of_source_error fuel i hcontent] at h
    cases h
    rfl
  | ok code =>
    cases hread : Datum.readText code with
    | error e' =>
      rw [runScript_of_read_error fuel i hcontent hread] at h
      cases h
      rfl
    | ok forms =>
      rw [runScript_apply, hcontent, Action.bind_apply] at h
      simp only [Action.ofExcept, Action.mapError, Action.pure_apply, Action.bind_apply, hread] at h
      obtain h | ⟨n, u, -, h⟩ := Action.bind_eq_error_iff.1 h
      · exact absurd h (evalScript_ne_error fuel i forms _ _ _)
      · cases h

theorem exists_first_failed (h : steps.countP Step.failed ≠ 0) :
    ∃ before x after e, steps = before ++ x :: after ∧ (∀ y ∈ before, y.failed = false) ∧
      x.result = .error e := by
  obtain ⟨y, hy, hfailed⟩ := List.countP_pos_iff.1 (Nat.pos_of_ne_zero h)
  obtain ⟨x, hx⟩ := Option.isSome_iff_exists.1 (List.find?_isSome.2 ⟨y, hy, hfailed⟩)
  obtain ⟨hxfailed, before, after, hsteps, hbefore⟩ := List.find?_eq_some_iff_append.1 hx
  cases hresult : x.result with
  | ok v => simp [Step.failed, hresult, Except.isOk, Except.toBool] at hxfailed
  | error e =>
    refine ⟨before, x, after, e, hsteps, fun z hz => ?_, hresult⟩
    simpa using hbefore z hz

/-- **A script is the pass over its forms, and a program is the pass up to the first failure.** If
all forms come to an end, the script leaves the store that the pass leaves and has printed what the
pass printed; it logs the form and the error of each step that failed, and at the end their number.
The program with the same text ends with a value where the script ends if no step failed; else it
fails with the error of the first that did, where the script stands right after that form. A script
that is not there or not a program fails before any form is evaluated. -/
theorem script_and_program_agree (fuel : Nat) (i : Interpreter) (script : Script) (s : State) :
    let debug := s.console.debug
    let opened := s.withLog (s.console.err ++ script.opening debug)
    (∀ e, script.content = .error e → i.runScript fuel script s = .error (.source e) opened) ∧
      ∀ code, script.content = .ok code →
        (∀ e, Datum.readText code = .error e →
          i.runScript fuel script s = .error (.read e) opened) ∧
        ∀ forms steps, Datum.readText code = .ok forms → i.pass? fuel forms s = some steps →
          let failed := steps.countP Step.failed
          steps.map Step.form = forms ∧
          i.runScript fuel script s = .value () ((Step.last s steps).withLog
            (opened.console.err ++ String.join (steps.map (Step.logged debug)) ++
              Script.closing debug forms.length failed)) ∧
          (failed = 0 → ∃ v, i.run fuel code s = .value v (Step.last s steps)) ∧
          (failed ≠ 0 → ∃ before x after e, steps = before ++ x :: after ∧
            (∀ y ∈ before, y.failed = false) ∧ x.result = .error e ∧
            i.run fuel code s = .error (.run e) x.after ∧
            ∃ err, i.evalScript fuel (forms.take (before.length + 1)) opened =
              .value 1 (x.after.withLog err)) := by
  intro debug opened
  refine ⟨fun e h => runScript_of_source_error fuel i h s, fun code hcode =>
    ⟨fun e h => runScript_of_read_error fuel i hcode h s, fun forms steps hread hpass => ?_⟩⟩
  intro failed
  have hrun : i.run fuel code s = (i.evalProgram fuel .unit forms).mapError .run s := by
    rw [run, hread]
  refine ⟨map_form_of_pass? hpass, runScript_of_pass? hcode hread hpass, fun hfailed => ?_,
    fun hfailed => ?_⟩
  · have hok : ∀ x ∈ steps, x.failed = false := by
      intro x hx
      simpa using List.countP_eq_zero.1 hfailed x hx
    obtain ⟨v, hv⟩ := evalProgram_of_pass? hpass hok .unit
    exact ⟨v, by rw [hrun, Action.mapError, hv]⟩
  · obtain ⟨before, x, after, e, rfl, hbefore, hx⟩ := exists_first_failed hfailed
    refine ⟨before, x, after, e, rfl, hbefore, hx, ?_, ?_⟩
    · rw [hrun, Action.mapError, evalProgram_of_failed hpass hbefore hx]
    · exact evalScript_take_of_failed hpass hbefore hx opened.console.err

/-- The third form fails. The script goes on with the fourth, and the program does not. -/
theorem script_and_program_agree_on_failure :
    let code := "(var a \"1\") (print a) (set missing a) (print \"end\")"
    let s : State := ⟨Store.fresh, {}⟩
    (∃ t, runScript 20 ⟨0⟩ ⟨"a.eva", .ok code⟩ s = .value () t ∧ t.console.out = "1\nend\n") ∧
      ∃ e t, run 20 ⟨0⟩ code s = .error (.run e) t ∧ t.console.out = "1\n" := by
  intro code s
  let forms := (Datum.readText code).toOption.getD []
  have hread : Datum.readText code = .ok forms := by decide +kernel
  have hpass : (pass? 20 ⟨0⟩ forms s).map (fun steps =>
      ((Step.last s steps).console.out, steps.countP Step.failed)) = some ("1\nend\n", 1) := by
    decide +kernel
  have hprinted : (run 20 ⟨0⟩ code s).after?.map (·.console.out) = some "1\n" := by
    decide +kernel
  obtain ⟨steps, hsteps, hout⟩ := Option.map_eq_some_iff.1 hpass
  obtain ⟨hlast, hfailed⟩ := Prod.mk.inj hout
  obtain ⟨-, h⟩ := script_and_program_agree 20 ⟨0⟩ ⟨"a.eva", .ok code⟩ s
  obtain ⟨-, hscript, -, hprogram⟩ := (h code rfl).2 forms steps hread hsteps
  obtain ⟨-, x, -, e, -, -, -, hrun, -⟩ := hprogram (by rw [hfailed]; decide)
  rw [hrun] at hprinted
  exact ⟨⟨_, hscript, hlast⟩, e, x.after, hrun, Option.some.inj hprinted⟩

end Interpreter

end ScopeLisp

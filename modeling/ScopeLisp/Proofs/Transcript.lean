import Mathlib.Data.List.TakeWhile
import ScopeLisp.Proofs.Calls
import ScopeLisp.Shell

/-!
# Transcripts

The command line program makes one interpreter and calls it: for each script, and then for the
program of the options or for each line that the line editor delivers. A transcript
(`Shell.Transcript`) puts together what these calls leave and write, each of them told as if it were
done alone. Main statement: `Shell.run_iff_transcript`, for whatever the editor answers.
-/

namespace ScopeLisp

/-- A blank line is one of which trimming leaves nothing. -/
theorem Text.trim_eq_empty_iff {s : String} :
    Text.trim s = "" ↔ s.toList.all Text.isBlank = true := by
  rw [Text.trim, String.ofList_eq_empty_iff, List.reverse_eq_nil_iff, List.dropWhile_eq_nil_iff,
    List.all_eq_true]
  constructor
  · intro h c hc
    rw [← List.takeWhile_append_dropWhile (p := Text.isBlank) (l := s.toList),
      List.mem_append] at hc
    rcases hc with hc | hc
    · exact List.mem_takeWhile_imp hc
    · exact h c (List.mem_reverse.2 hc)
  · intro h c hc
    exact h c ((List.dropWhile_sublist Text.isBlank).mem (List.mem_reverse.1 hc))

namespace Shell

open ScopeLisp.Action

variable {fuel : Nat} {debug : Bool} {i : Interpreter}

/-! ## Transcripts -/

/-- What comes of some things dealt with in turn, if `R` tells what comes of each. -/
inductive InTurn {α : Type} (R : Store → α → Store → Output → Prop) :
    Store → List α → Store → Output → Prop
  | nil {s : Store} : InTurn R s [] s {}
  | cons {s t u : Store} {a : α} {rest : List α} {w w' : Output} (hfirst : R s a t w)
      (hrest : InTurn R t rest u w') : InTurn R s (a :: rest) u (w ++ w')

/-- What a script leaves and writes. One that cannot be had or read adds a warning, and that is
all. -/
inductive ScriptMakes (fuel : Nat) (debug : Bool) (i : Interpreter) (s : Store) :
    Script → Store → Output → Prop
  | done {script : Script} {t : Store} {w : Output}
      (hrun : (i.runScript fuel script).Makes debug s (.ok ()) t w) :
      ScriptMakes fuel debug i s script t w
  | refused {script : Script} {e : ScriptError}
      (hrun : (i.runScript fuel script).Makes debug s (.error e) s ⟨"", script.opening debug⟩) :
      ScriptMakes fuel debug i s script s
        (⟨"", script.opening debug⟩ ++ .log debug .warning e.message)

/-- A line starts with `>`, and something follows. -/
def IsCommand (line : String) : Prop := ∃ command, command ≠ "" ∧ line = ">" ++ command

def answer (i : Interpreter) (s : Store) (command : String) : String :=
  if command = "env" then ", ".intercalate (s.names i.globalFrame) else "invalid command"

/-- What is printed of the value of a line. -/
def shown (s : Store) : Value → Output
  | .unit => {}
  | v => .line (v.text s)

/-- What a line of input leaves and writes. -/
inductive LineMakes (fuel : Nat) (debug : Bool) (i : Interpreter) (s : Store) :
    String → Store → Output → Prop
  | blank {line : String} (hblank : Text.trim line = "") : LineMakes fuel debug i s line s {}
  | command {command : String} (hcommand : command ≠ "") :
      LineMakes fuel debug i s (">" ++ command) s (.line (answer i s (Text.trim command)))
  | value {line : String} {v : Value} {t : Store} {w : Output} (hblank : Text.trim line ≠ "")
      (hcommand : ¬ IsCommand line) (hrun : (i.run fuel line).Makes debug s (.ok v) t w) :
      LineMakes fuel debug i s line t (w ++ shown t v)
  | failed {line : String} {e : ProgramError} {t : Store} {w : Output}
      (hblank : Text.trim line ≠ "") (hcommand : ¬ IsCommand line)
      (hrun : (i.run fuel line).Makes debug s (.error e) t w) :
      LineMakes fuel debug i s line t (w ++ .log debug .error e.message)

/-- What an event leaves and writes. -/
inductive EventMakes (fuel : Nat) (debug : Bool) (i : Interpreter) (s : Store) :
    LineEditor.Event → Store → Output → Prop
  | line {text : String} {t : Store} {w : Output} (hline : LineMakes fuel debug i s text t w) :
      EventMakes fuel debug i s (.line text) t w
  | interrupted : EventMakes fuel debug i s .interrupted s (.line "^C")

/-- What is written about the file of lines, if something could not be done with it. -/
def historyWarning (debug : Bool) (deed : String) : Option String → Output
  | none => {}
  | some reason => .log debug .warning ("error " ++ deed ++ " history file: " ++ reason)

/-- The exit status when no line comes any more, and what is written then. -/
inductive StopMakes (debug : Bool) (saveError : Option String) :
    LineEditor.Stop → Nat → Output → Prop
  | ended : StopMakes debug saveError .ended 0
      (.line "^D" ++ historyWarning debug "saving" saveError)
  | failed {reason : String} : StopMakes debug saveError (.failed reason) 0
      (.log debug .error reason ++ historyWarning debug "saving" saveError)
  | crashed : StopMakes debug saveError .crashed crashStatus {}

/-- What follows on the scripts: the exit status, and what is left and written. -/
inductive Ending (fuel : Nat) (o : Options) (i : Interpreter) (editor : LineEditor) (s : Store) :
    Nat → Store → Output → Prop
  | value {code : String} {v : Value} {t : Store} {w : Output} (hprogram : o.program = some code)
      (hrun : (i.run fuel code).Makes o.debug s (.ok v) t w) :
      Ending fuel o i editor s 0 t (w ++ .line (v.text t))
  | failed {code : String} {e : ProgramError} {t : Store} {w : Output}
      (hprogram : o.program = some code)
      (hrun : (i.run fuel code).Makes o.debug s (.error e) t w) :
      Ending fuel o i editor s 1 t (w ++ .log o.debug .error e.message)
  | stopped (hprogram : o.program = none) (hstop : o.noRepl = true) :
      Ending fuel o i editor s 0 s {}
  | lines {t : Store} {status : Nat} {w w' : Output} (hprogram : o.program = none)
      (hstop : o.noRepl = false)
      (hevents : InTurn (EventMakes fuel o.debug i) s editor.events t w)
      (hend : StopMakes o.debug (editor.saveError (editor.events.filterMap kept?)) editor.stop
        status w') :
      Ending fuel o i editor s status t
        (historyWarning o.debug "opening" editor.loadError ++ w ++ w')

/-- All calls of the command line program on one new interpreter: its exit status, and the store and
the output that come of them. -/
inductive Transcript (fuel : Nat) (o : Options) (scripts : List Script) (editor : LineEditor) :
    Nat → Store → Output → Prop
  | mk {i : Interpreter} {s t u : Store} {status : Nat} {w w' : Output}
      (hfresh : (Interpreter.fresh : Quiet Interpreter).Makes o.debug {} (.ok i) s {})
      (hscripts : InTurn (ScriptMakes fuel o.debug i) s scripts t w)
      (hending : Ending fuel o i editor t status u w') :
      Transcript fuel o scripts editor status u
        (.log o.debug .debug ("set options: " ++ o.text) ++ w ++ w')

/-! ## The parts of the shell -/

theorem forM_writeOnly {α : Type} {f : α → Quiet Unit} (hf : ∀ a, WriteOnly true (f a))
    (as : List α) : WriteOnly true (as.forM f) := by
  induction as with
  | nil => exact .pure ()
  | cons a as ih => exact .bind (hf a) fun _ => ih

theorem makes_forM_iff {α : Type} {f : α → Quiet Unit} {R : Store → α → Store → Output → Prop}
    (hf : ∀ a, WriteOnly true (f a))
    (h : ∀ s a t w, (f a).Makes debug s (.ok ()) t w ↔ R s a t w) (as : List α) (s t : Store)
    (w : Output) : (as.forM f).Makes debug s (.ok ()) t w ↔ InTurn R s as t w := by
  constructor
  · intro hmakes
    induction as generalizing s w with
    | nil =>
      obtain ⟨-, rfl, rfl⟩ := makes_pure_iff.1 hmakes
      exact .nil
    | cons a as ih =>
      obtain ⟨⟨⟩, u, w₁, w₂, hfirst, hrest, rfl⟩ :=
        (makes_bind_iff (hf a) fun _ => forM_writeOnly hf as).1 hmakes
      exact .cons ((h s a u w₁).1 hfirst) (ih u w₂ hrest)
  · intro hturn
    induction hturn with
    | nil => exact makes_pure_iff.2 ⟨rfl, rfl, rfl⟩
    | @cons s t u a as w w' hfirst _ ih =>
      exact ((h s a t w).2 hfirst).bind ih (forM_writeOnly hf as)

/-! ### Scripts -/

/-- The reply to a script that was run. -/
def scriptReply : Except ScriptError Unit → Quiet Unit
  | .ok _ => pure ()
  | .error e => Action.log .warning e.message

theorem script_eq (fuel : Nat) (i : Interpreter) (script : Script) :
    Shell.script fuel i script = (i.runScript fuel script).attempt >>= scriptReply := rfl

theorem scriptReply_writeOnly (r : Except ScriptError Unit) : WriteOnly true (scriptReply r) := by
  cases r with
  | ok v => exact .pure ()
  | error e => exact .log _ _

theorem script_writeOnly (fuel : Nat) (i : Interpreter) (script : Script) :
    WriteOnly true (Shell.script fuel i script) :=
  .bind (i.runScript_writeOnly fuel script).attempt scriptReply_writeOnly

/-- A script that fails leaves the store as it is, and logs its name. -/
theorem makes_runScript_error {script : Script} {e : ScriptError} {s t : Store} {w : Output}
    (h : (i.runScript fuel script).Makes debug s (.error e) t w) :
    t = s ∧ w = ⟨"", script.opening debug⟩ := by
  have hafter := Interpreter.withLog_of_runScript_error (Outcome.result?_eq_error_iff.1 h)
  cases w
  simp only [State.withLog, Console.ofOutput, String.empty_append, State.mk.injEq,
    Console.mk.injEq] at hafter
  obtain ⟨rfl, rfl, rfl, -⟩ := hafter
  exact ⟨rfl, rfl⟩

theorem makes_script_iff (s : Store) (script : Script) (t : Store) (w : Output) :
    (Shell.script fuel i script).Makes debug s (.ok ()) t w ↔
      ScriptMakes fuel debug i s script t w := by
  have herror (e : ScriptError) (u : Store) : scriptReply (.error e) ⟨u, { debug }⟩ =
      .value () ⟨u, .ofOutput debug (.log debug .warning e.message)⟩ :=
    log_apply debug u .warning e.message
  rw [script_eq, makes_reply_iff () () (fun _ _ => {})
    (fun (e : ScriptError) _ => .log debug .warning e.message) (i.runScript_writeOnly fuel script)
    scriptReply_writeOnly (fun _ _ => rfl) herror]
  constructor
  · rintro (⟨_, w', hrun, -, rfl⟩ | ⟨e, w', hrun, -, rfl⟩)
    · rw [Output.append_empty]
      exact .done hrun
    · obtain ⟨rfl, rfl⟩ := makes_runScript_error hrun
      exact .refused hrun
  · intro h
    cases h with
    | done hrun => exact .inl ⟨(), w, hrun, rfl, w.append_empty⟩
    | @refused e hrun => exact .inr ⟨e, _, hrun, rfl, rfl⟩

/-! ### Lines -/

theorem command_writeOnly (i : Interpreter) (command : String) :
    WriteOnly true (Shell.command i command) := by
  intro s c
  exact WriteOnly.print (answer i s command) s c

theorem line_writeOnly (fuel : Nat) (i : Interpreter) (line : String) :
    WriteOnly true (Shell.line fuel i line) := by
  unfold Shell.line
  split
  · exact .pure ()
  · split
    · exact command_writeOnly i _
    · refine .bind (i.run_writeOnly fuel line).attempt fun r => ?_
      split
      · exact .pure ()
      · exact .bind .textOf fun text => .print text
      · exact .log _ _

theorem command?_eq {command : String} (h : command ≠ "") :
    command? (">" ++ command).toList = some (Text.trim command) := by
  have hlist : (">" ++ command).toList = '>' :: command.toList := by simp
  rw [hlist]
  cases hc : command.toList with
  | nil => exact absurd (String.toList_eq_nil_iff.1 hc) h
  | cons c cs => rw [command?, ← hc, String.ofList_toList]

theorem command?_eq_none {line : String} (h : ¬ IsCommand line) : command? line.toList = none := by
  unfold command?
  split
  · next c cs hline =>
    refine absurd ⟨String.ofList (c :: cs), by simp, ?_⟩ h
    rw [← String.ofList_toList (s := line), hline]
    simp
  · rfl

theorem trim_ne_empty_of_command (command : String) : Text.trim (">" ++ command) ≠ "" := by
  intro h
  have hall := Text.trim_eq_empty_iff.1 h
  have hmark : Text.isBlank '>' = false := by decide
  simp [hmark] at hall

theorem line_of_blank {line : String} (h : Text.trim line = "") :
    Shell.line fuel i line = pure () := by
  rw [Shell.line, if_pos h]

theorem line_of_command {command : String} (h : command ≠ "") :
    Shell.line fuel i (">" ++ command) = Shell.command i (Text.trim command) := by
  rw [Shell.line, if_neg (trim_ne_empty_of_command command), command?_eq h]

/-- The reply to a line that was run. -/
def lineReply : Except ProgramError Value → Quiet Unit
  | .ok .unit => pure ()
  | .ok v => Action.textOf v >>= Action.print
  | .error e => Action.log .error e.message

theorem line_of_program {line : String} (hblank : Text.trim line ≠ "")
    (hcommand : ¬ IsCommand line) :
    Shell.line fuel i line = (i.run fuel line).attempt >>= lineReply := by
  rw [Shell.line, if_neg hblank, command?_eq_none hcommand]
  rfl

theorem lineReply_writeOnly (r : Except ProgramError Value) : WriteOnly true (lineReply r) := by
  unfold lineReply
  split
  · exact .pure ()
  · exact .bind .textOf fun text => .print text
  · exact .log _ _

theorem lineReply_ok_apply (debug : Bool) (s : Store) (v : Value) :
    lineReply (.ok v) ⟨s, { debug }⟩ = .value () ⟨s, .ofOutput debug (shown s v)⟩ := by
  cases v with
  | unit => rfl
  | _ => exact print_apply debug s _

theorem makes_command_iff {command : String} {s t : Store} {w : Output} :
    (Shell.command i command).Makes debug s (.ok ()) t w ↔ s = t ∧ .line (answer i s command) = w :=
  makes_print_iff

theorem makes_program_line_iff {line : String} (hblank : Text.trim line ≠ "")
    (hcommand : ¬ IsCommand line) {s t : Store} {w : Output} :
    (Shell.line fuel i line).Makes debug s (.ok ()) t w ↔
      (∃ v w', (i.run fuel line).Makes debug s (.ok v) t w' ∧ w' ++ shown t v = w) ∨
        ∃ e w', (i.run fuel line).Makes debug s (.error e) t w' ∧
          w' ++ .log debug .error e.message = w := by
  rw [line_of_program hblank hcommand]
  have herror (e : ProgramError) (u : Store) : lineReply (.error e) ⟨u, { debug }⟩ =
      .value () ⟨u, .ofOutput debug (.log debug .error e.message)⟩ :=
    log_apply debug u .error e.message
  rw [makes_reply_iff () () (fun v u => shown u v)
    (fun (e : ProgramError) _ => .log debug .error e.message) (i.run_writeOnly fuel line)
    lineReply_writeOnly (fun v u => lineReply_ok_apply debug u v) herror]
  simp only [true_and]

theorem makes_line_iff (s : Store) (line : String) (t : Store) (w : Output) :
    (Shell.line fuel i line).Makes debug s (.ok ()) t w ↔ LineMakes fuel debug i s line t w := by
  constructor
  · intro h
    by_cases hblank : Text.trim line = ""
    · rw [line_of_blank hblank] at h
      obtain ⟨-, rfl, rfl⟩ := makes_pure_iff.1 h
      exact .blank hblank
    by_cases hcommand : IsCommand line
    · obtain ⟨command, hne, rfl⟩ := hcommand
      rw [line_of_command hne] at h
      obtain ⟨rfl, rfl⟩ := makes_command_iff.1 h
      exact .command hne
    · obtain ⟨v, w', hrun, rfl⟩ | ⟨e, w', hrun, rfl⟩ :=
        (makes_program_line_iff hblank hcommand).1 h
      · exact .value hblank hcommand hrun
      · exact .failed hblank hcommand hrun
  · intro h
    cases h with
    | blank hblank =>
      rw [line_of_blank hblank]
      exact makes_pure_iff.2 ⟨rfl, rfl, rfl⟩
    | command hne =>
      rw [line_of_command hne]
      exact makes_command_iff.2 ⟨rfl, rfl⟩
    | @value _ v _ w' hblank hcommand hrun =>
      exact (makes_program_line_iff hblank hcommand).2 (.inl ⟨v, w', hrun, rfl⟩)
    | @failed _ e _ w' hblank hcommand hrun =>
      exact (makes_program_line_iff hblank hcommand).2 (.inr ⟨e, w', hrun, rfl⟩)

/-! ### The line editor -/

theorem history_writeOnly (deed : String) (reason : Option String) :
    WriteOnly true (history deed reason) := by
  cases reason with
  | none => exact .pure ()
  | some reason => exact .log _ _

theorem history_apply (s : Store) (deed : String) (reason : Option String) :
    history deed reason ⟨s, { debug }⟩ =
      .value () ⟨s, .ofOutput debug (historyWarning debug deed reason)⟩ := by
  cases reason with
  | none => rfl
  | some reason => exact log_apply debug s .warning _

theorem makes_history_iff {deed : String} {reason : Option String} {s t : Store} {w : Output} :
    (history deed reason).Makes debug s (.ok ()) t w ↔
      s = t ∧ historyWarning debug deed reason = w := by
  rw [makes_iff_of_apply (history_apply s deed reason), eq_self_iff_true, true_and]

theorem event_writeOnly (fuel : Nat) (i : Interpreter) (event : LineEditor.Event) :
    WriteOnly true (Shell.event fuel i event) := by
  cases event with
  | line text => exact line_writeOnly fuel i text
  | interrupted => exact .print _

theorem makes_event_iff (s : Store) (event : LineEditor.Event) (t : Store) (w : Output) :
    (Shell.event fuel i event).Makes debug s (.ok ()) t w ↔
      EventMakes fuel debug i s event t w := by
  cases event with
  | line text =>
    refine (makes_line_iff s text t w).trans ⟨.line, fun h => ?_⟩
    cases h with
    | line hline => exact hline
  | interrupted =>
    refine makes_print_iff.trans ⟨?_, fun h => ?_⟩
    · rintro ⟨rfl, rfl⟩
      exact .interrupted
    · cases h with
      | interrupted => exact ⟨rfl, rfl⟩

theorem finish_writeOnly (saveError : Option String) (stop : LineEditor.Stop) :
    WriteOnly true (finish saveError stop) := by
  cases stop with
  | ended => exact .bind (.print _) fun _ => .bind (history_writeOnly _ _) fun _ => .pure _
  | failed reason => exact .bind (.log _ _) fun _ => .bind (history_writeOnly _ _) fun _ => .pure _
  | crashed => exact .pure _

theorem StopMakes.makes {saveError : Option String} {stop : LineEditor.Stop} {status : Nat}
    {w : Output} (h : StopMakes debug saveError stop status w) (s : Store) :
    (finish saveError stop).Makes debug s (.ok status) s w := by
  have hhistory : (history "saving" saveError >>= fun _ => pure 0 : Quiet Nat).Makes debug s
      (.ok 0) s (historyWarning debug "saving" saveError ++ {}) :=
    (makes_history_iff.2 ⟨rfl, rfl⟩).bind (makes_pure_iff.2 ⟨rfl, rfl, rfl⟩) (.pure 0)
  have hwriteOnly := (history_writeOnly "saving" saveError).bind fun _ => .pure 0
  rw [Output.append_empty] at hhistory
  cases h with
  | ended => exact (makes_print_iff.2 ⟨rfl, rfl⟩).bind hhistory hwriteOnly
  | failed => exact (makes_log_iff.2 ⟨rfl, rfl⟩).bind hhistory hwriteOnly
  | crashed => exact makes_pure_iff.2 ⟨rfl, rfl, rfl⟩

theorem exists_stopMakes (debug : Bool) (saveError : Option String) (stop : LineEditor.Stop) :
    ∃ status w, StopMakes debug saveError stop status w := by
  cases stop with
  | ended => exact ⟨_, _, .ended⟩
  | failed reason => exact ⟨_, _, .failed⟩
  | crashed => exact ⟨_, _, .crashed⟩

theorem makes_finish_iff {saveError : Option String} {stop : LineEditor.Stop} {s t : Store}
    {status : Nat} {w : Output} :
    (finish saveError stop).Makes debug s (.ok status) t w ↔
      s = t ∧ StopMakes debug saveError stop status w := by
  constructor
  · intro h
    obtain ⟨status', w', hstop⟩ := exists_stopMakes debug saveError stop
    obtain ⟨rfl, rfl, rfl⟩ := (makes_iff_of_apply (makes_ok_iff.1 (hstop.makes s))).1 h
    exact ⟨rfl, hstop⟩
  · rintro ⟨rfl, hstop⟩
    exact hstop.makes s

theorem readLines_writeOnly (fuel : Nat) (i : Interpreter) (editor : LineEditor) :
    WriteOnly true (readLines fuel i editor) :=
  .bind (history_writeOnly _ _) fun _ =>
    .bind (forM_writeOnly (event_writeOnly fuel i) _) fun _ => finish_writeOnly _ _

theorem makes_readLines_iff {editor : LineEditor} {s t : Store} {status : Nat} {w : Output} :
    (readLines fuel i editor).Makes debug s (.ok status) t w ↔
      ∃ w₁ w₂, InTurn (EventMakes fuel debug i) s editor.events t w₁ ∧
        StopMakes debug (editor.saveError (editor.events.filterMap kept?)) editor.stop status w₂ ∧
        historyWarning debug "opening" editor.loadError ++ w₁ ++ w₂ = w := by
  have hevents := forM_writeOnly (event_writeOnly fuel i) editor.events
  have hfinish := finish_writeOnly (editor.saveError (editor.events.filterMap kept?)) editor.stop
  unfold readLines
  rw [makes_bind_iff (history_writeOnly _ _) fun _ => .bind hevents fun _ => hfinish]
  constructor
  · rintro ⟨⟨⟩, s', w₀, w', hhistory, hrest, rfl⟩
    obtain ⟨rfl, rfl⟩ := makes_history_iff.1 hhistory
    obtain ⟨⟨⟩, u, w₁, w₂, hturn, hend, rfl⟩ := (makes_bind_iff hevents fun _ => hfinish).1 hrest
    obtain ⟨rfl, hstop⟩ := makes_finish_iff.1 hend
    exact ⟨w₁, w₂, (makes_forM_iff (event_writeOnly fuel i) makes_event_iff ..).1 hturn, hstop,
      Output.append_assoc ..⟩
  · rintro ⟨w₁, w₂, hturn, hstop, rfl⟩
    have hforM := (makes_forM_iff (event_writeOnly fuel i) makes_event_iff ..).2 hturn
    exact ⟨(), s, _, _, makes_history_iff.2 ⟨rfl, rfl⟩, hforM.bind (hstop.makes t) hfinish,
      Output.append_assoc ..⟩

/-! ### What follows on the scripts -/

/-- What the shell does after the scripts. -/
def ending (fuel : Nat) (o : Options) (i : Interpreter) (editor : LineEditor) : Quiet Nat :=
  match o.program with
  | some code => program fuel i code
  | none => if o.noRepl then pure 0 else readLines fuel i editor

theorem program_writeOnly (fuel : Nat) (i : Interpreter) (code : String) :
    WriteOnly true (program fuel i code) := by
  refine .bind (i.run_writeOnly fuel code).attempt fun r => ?_
  cases r with
  | ok v => exact .bind .textOf fun text => .bind (.print text) fun _ => .pure 0
  | error e => exact .bind (.log _ _) fun _ => .pure 1

theorem ending_writeOnly (fuel : Nat) (o : Options) (i : Interpreter) (editor : LineEditor) :
    WriteOnly true (ending fuel o i editor) := by
  unfold ending
  split
  · exact program_writeOnly fuel i _
  · split
    · exact .pure _
    · exact readLines_writeOnly fuel i editor

theorem makes_program_iff {code : String} {s t : Store} {status : Nat} {w : Output} :
    (program fuel i code).Makes debug s (.ok status) t w ↔
      (∃ v w', (i.run fuel code).Makes debug s (.ok v) t w' ∧ 0 = status ∧
        w' ++ .line (v.text t) = w) ∨
      ∃ e w', (i.run fuel code).Makes debug s (.error e) t w' ∧ 1 = status ∧
        w' ++ .log debug .error e.message = w := by
  unfold program
  refine makes_reply_iff 0 1 (fun v s => .line (v.text s))
    (fun (e : ProgramError) _ => .log debug .error e.message) (i.run_writeOnly fuel code)
    (fun r => ?_) (fun v u => ?_) fun e u => ?_
  · cases r with
    | ok v => exact .bind .textOf fun text => .bind (.print text) fun _ => .pure 0
    | error e => exact .bind (.log _ _) fun _ => .pure 1
  · simp only [bind_apply, textOf, print_apply, pure_apply]
  · simp only [bind_apply, log_apply, pure_apply]

theorem makes_ending_iff {o : Options} {editor : LineEditor} {s t : Store} {status : Nat}
    {w : Output} :
    (ending fuel o i editor).Makes o.debug s (.ok status) t w ↔
      Ending fuel o i editor s status t w := by
  unfold ending
  constructor
  · intro h
    split at h
    · next code hprogram =>
      obtain ⟨v, w', hrun, rfl, rfl⟩ | ⟨e, w', hrun, rfl, rfl⟩ := makes_program_iff.1 h
      · exact .value hprogram hrun
      · exact .failed hprogram hrun
    · next hprogram =>
      split at h
      · next hstop =>
        obtain ⟨rfl, rfl, rfl⟩ := makes_pure_iff.1 h
        exact .stopped hprogram hstop
      · next hstop =>
        obtain ⟨w₁, w₂, hevents, hend, rfl⟩ := makes_readLines_iff.1 h
        exact .lines hprogram (Bool.eq_false_iff.2 hstop) hevents hend
  · intro h
    cases h with
    | value hprogram hrun =>
      rw [hprogram]
      exact makes_program_iff.2 (.inl ⟨_, _, hrun, rfl, rfl⟩)
    | failed hprogram hrun =>
      rw [hprogram]
      exact makes_program_iff.2 (.inr ⟨_, _, hrun, rfl, rfl⟩)
    | stopped hprogram hstop =>
      rw [hprogram, if_pos hstop]
      exact makes_pure_iff.2 ⟨rfl, rfl, rfl⟩
    | lines hprogram hstop hevents hend =>
      simp only [hprogram, hstop, Bool.false_eq_true, if_false]
      exact makes_readLines_iff.2 ⟨_, _, hevents, hend, rfl⟩

theorem run_apply (fuel : Nat) (o : Options) (scripts : List Script) (editor : LineEditor) :
    Shell.run fuel o scripts editor {} =
      (do
        Action.log .debug ("set options: " ++ o.text)
        let i ← Interpreter.fresh
        scripts.forM (Shell.script fuel i)
        ending fuel o i editor : Quiet Nat) ⟨{}, { debug := o.debug }⟩ := by
  unfold Shell.run start ending
  cases o.program with
  | some code =>
    simp only [bind_assoc, pure_bind, bind_pure]
    rfl
  | none =>
    cases o.noRepl <;> simp only [bind_assoc, pure_bind, if_true, Bool.false_eq_true, if_false] <;>
      rfl

theorem fresh_writeOnly : WriteOnly true (Interpreter.fresh : Quiet Interpreter) :=
  .bind .newFrame fun _ => .bind (.defineAll _) fun _ => .pure _

theorem makes_calls_iff {o : Options} {scripts : List Script} {editor : LineEditor} {t : Store}
    {status : Nat} {w : Output} :
    (do
      Action.log .debug ("set options: " ++ o.text)
      let i ← Interpreter.fresh
      scripts.forM (Shell.script fuel i)
      ending fuel o i editor : Quiet Nat).Makes o.debug {} (.ok status) t w ↔
      Transcript fuel o scripts editor status t w := by
  have hscripts (i : Interpreter) := forM_writeOnly (script_writeOnly fuel i) scripts
  have hending (i : Interpreter) := ending_writeOnly fuel o i editor
  have hcalls (i : Interpreter) : WriteOnly true
      (scripts.forM (Shell.script fuel i) >>= fun _ => ending fuel o i editor) :=
    .bind (hscripts i) fun _ => hending i
  rw [makes_bind_iff (.log _ _) fun _ => .bind fresh_writeOnly hcalls]
  constructor
  · rintro ⟨⟨⟩, s₀, w₀, w₁, hlog, hrest, rfl⟩
    obtain ⟨rfl, rfl⟩ := makes_log_iff.1 hlog
    obtain ⟨i, s, w₂, w₃, hfresh, hturns, rfl⟩ := (makes_bind_iff fresh_writeOnly hcalls).1 hrest
    obtain ⟨⟨⟩, u, w₄, w₅, hturn, hend, rfl⟩ :=
      (makes_bind_iff (hscripts i) fun _ => hending i).1 hturns
    obtain ⟨-, -, rfl⟩ :=
      (makes_iff_of_apply (Interpreter.fresh_apply (.ofOutput o.debug {}))).1 hfresh
    rw [Output.empty_append, ← Output.append_assoc]
    exact .mk hfresh ((makes_forM_iff (script_writeOnly fuel i) makes_script_iff ..).1 hturn)
      (makes_ending_iff.1 hend)
  · intro h
    cases h with
    | @mk i s u _ _ w₁ w₂ hfresh hturn hend =>
      have hforM := (makes_forM_iff (script_writeOnly fuel i) makes_script_iff ..).2 hturn
      have hturns := (makes_bind_iff (hscripts i) fun _ => hending i).2
        ⟨(), u, w₁, w₂, hforM, makes_ending_iff.2 hend, rfl⟩
      have hrest := (makes_bind_iff fresh_writeOnly hcalls).2
        ⟨i, s, {}, _, hfresh, hturns, rfl⟩
      rw [Output.empty_append] at hrest
      exact ⟨(), {}, _, _, makes_log_iff.2 ⟨rfl, rfl⟩, hrest, Output.append_assoc ..⟩

/-- There is a program in the options, and after the scripts it fails. -/
def ProgramFails (fuel : Nat) (o : Options) (scripts : List Script) : Prop :=
  ∃ code i s t u w w' e, o.program = some code ∧
    (Interpreter.fresh : Quiet Interpreter).Makes o.debug {} (.ok i) s {} ∧
    InTurn (ScriptMakes fuel o.debug i) s scripts t w ∧
    (i.run fuel code).Makes o.debug t (.error e) u w'

theorem StopMakes.status_ne_one {saveError : Option String} {stop : LineEditor.Stop} {status : Nat}
    {w : Output} (h : StopMakes debug saveError stop status w) : status ≠ 1 := by
  cases h <;> decide

theorem Transcript.status_eq_one {o : Options} {scripts : List Script} {editor : LineEditor}
    {t : Store} {status : Nat} {w : Output} (h : Transcript fuel o scripts editor status t w)
    (hstatus : status = 1) : ProgramFails fuel o scripts := by
  obtain ⟨hfresh, hturn, hend⟩ := h
  cases hend with
  | failed hprogram hrun => exact ⟨_, _, _, _, _, _, _, _, hprogram, hfresh, hturn, hrun⟩
  | lines _ _ _ hend => exact absurd hstatus hend.status_ne_one
  | value | stopped => cases hstatus

theorem ProgramFails.transcript {o : Options} {scripts : List Script}
    (h : ProgramFails fuel o scripts) (editor : LineEditor) :
    ∃ t w, Transcript fuel o scripts editor 1 t w := by
  obtain ⟨code, i, s, t, u, w, w', e, hprogram, hfresh, hturn, hrun⟩ := h
  exact ⟨u, _, .mk hfresh hturn (.failed hprogram hrun)⟩

theorem ending_of_not_readsLines {o : Options} (h : o.readsLines = false)
    (editor editor' : LineEditor) : ending fuel o i editor' = ending fuel o i editor := by
  unfold ending
  unfold Options.readsLines at h
  split
  · rfl
  · next hprogram =>
    simp only [hprogram, Option.isNone_none, Bool.true_and, Bool.not_eq_false'] at h
    rw [if_pos h, if_pos h]

/-- **The command line program is the calls of its interpreter.** It ends with an exit status if all
its calls end, and then it has left and written what they did, in the order of the transcript,
whatever the line editor answers. The status is 1 if there is a program in the options that fails,
and only then. The line editor is not asked if there is a program, or if lines are not asked for. -/
theorem run_iff_transcript (fuel : Nat) (o : Options) (scripts : List Script)
    (editor : LineEditor) :
    (∀ status t, Shell.run fuel o scripts editor {} = .value status t ↔
      ∃ w, Transcript fuel o scripts editor status t.store w ∧
        t.console = .ofOutput o.debug w) ∧
    (∀ status t, Shell.run fuel o scripts editor {} = .value status t →
      (status = 1 ↔ ProgramFails fuel o scripts)) ∧
    (o.readsLines = false → ∀ editor',
      Shell.run fuel o scripts editor' {} = Shell.run fuel o scripts editor {}) := by
  have hiff (status : Nat) (t : State) : Shell.run fuel o scripts editor {} = .value status t ↔
      ∃ w, Transcript fuel o scripts editor status t.store w ∧
        t.console = .ofOutput o.debug w := by
    rw [run_apply, apply_eq_value_iff]
    · simp only [makes_calls_iff]
    · exact .bind (.log _ _) fun _ => .bind fresh_writeOnly fun i =>
        .bind (forM_writeOnly (script_writeOnly fuel i) scripts) fun _ =>
          ending_writeOnly fuel o i editor
  refine ⟨hiff, fun status t hrun => ⟨fun hstatus => ?_, fun hfails => ?_⟩, fun h editor' => ?_⟩
  · obtain ⟨w, htranscript, -⟩ := (hiff status t).1 hrun
    exact htranscript.status_eq_one hstatus
  · obtain ⟨u, w, htranscript⟩ := hfails.transcript editor
    have hone := (hiff 1 ⟨u, .ofOutput o.debug w⟩).2 ⟨w, htranscript, rfl⟩
    rw [hrun] at hone
    exact (Outcome.value.inj hone).1
  · rw [run_apply, run_apply]
    simp only [ending_of_not_readsLines h editor editor']

/-- A script that is not there, one that is, and what the editor delivers: a program, a blank line,
a line that is given up, a command, and a program that fails. First there is no file of earlier
lines. The next time there is one, the input breaks off, and the lines that are not blank cannot be
saved. -/
theorem transcript_of_lines :
    let scripts : List Script :=
      [⟨"none.eva", .error .missing⟩, ⟨"a.eva", .ok "(var a \"a\") (set b a)"⟩]
    let told : Output :=
      .log false .info "running \"none.eva\"..." ++
        .log false .warning "No such file or directory (os error 2)" ++
        .log false .info "running \"a.eva\"..." ++ .log false .warning "an error ocurred:" ++
        .log false .warning "(set b a)" ++ .log false .warning "`b` is not defined" ++
        .log false .info "run_file: done (2 forms, 1 failed)"
    let first : LineEditor :=
      { loadError := some SourceError.missing.message
        events :=
          [.line "(print a) \"b\"", .line " ", .interrupted, .line ">help", .line "(set b a)"]
        stop := .ended
        saveError := fun _ => none }
    let second : LineEditor :=
      { loadError := none
        events := [.line "a", .line "", .line ">env "]
        stop := .failed "stream did not contain valid UTF-8"
        saveError := fun lines =>
          if lines = ["a", ">env "] then some "Permission denied (os error 13)" else none }
    (∃ s, Transcript 20 {} scripts first 0 s
      (told ++
        .log false .warning "error opening history file: No such file or directory (os error 2)" ++
        .line "a" ++ .line "b" ++ .line "^C" ++ .line "invalid command" ++
        .log false .error "`b` is not defined" ++ .line "^D")) ∧
    (∃ s, Transcript 20 {} scripts second 0 s
      (told ++ .line "a" ++
        .line "*, +, -, /, <, <=, =, >, >=, VERSION, a, false, null, print, true" ++
        .log false .error "stream did not contain valid UTF-8" ++
        .log false .warning "error saving history file: Permission denied (os error 13)")) ∧
    ¬ ProgramFails 20 {} scripts := by
  intro scripts told first second
  have hmakes (editor : LineEditor) (w : Output)
      (hrun : (Shell.run 20 {} scripts editor {}).result?.map
        (fun r => (r.1.toOption, r.2.console)) = some (some 0, .ofOutput false w)) :
      (∃ s, Transcript 20 {} scripts editor 0 s w) ∧ ¬ ProgramFails 20 {} scripts := by
    obtain ⟨hiff, hstatus, -⟩ := run_iff_transcript 20 {} scripts editor
    cases hvalue : Shell.run 20 {} scripts editor {} with
    | value status t =>
      rw [hvalue] at hrun
      obtain ⟨hzero, hconsole⟩ := Prod.mk.inj (Option.some.inj hrun)
      obtain rfl : status = 0 := Option.some.inj hzero
      obtain ⟨w', htranscript, hconsole'⟩ := (hiff 0 t).1 hvalue
      obtain rfl : w' = w := Console.ofOutput_inj.1 (hconsole'.symm.trans hconsole)
      exact ⟨⟨t.store, htranscript⟩, fun h => Nat.zero_ne_one ((hstatus 0 t hvalue).2 h)⟩
    | error e t => nomatch e
    | unfinished =>
      rw [hvalue] at hrun
      cases hrun
  refine ⟨(hmakes first _ ?_).1, hmakes second _ ?_⟩ <;> decide +kernel

end Shell

end ScopeLisp

import Mathlib.Logic.Relation
import ScopeLisp.Proofs.Discipline
import ScopeLisp.Script

/-!
# Sessions

A session is the life of one interpreter: it is made in an empty store, and then the host has it run
programs and scripts and evaluate data, in any frame that exists at the time. Requests may fail; what
they did before stays. `Session.Reached` says which sessions there can be. A discipline that lets
all data be evaluated and all frames be written holds of every session (`Reached.upheld`), and what
is later leads on from what was before (`Later.leads`).
-/

namespace ScopeLisp

/-- What a host can ask of an interpreter. -/
inductive Request where
  | run (code : String)
  | runScript (script : Script)
  | eval (d : Datum)
  | evalGlobal (d : Datum)
  | evalIn (d : Datum) (env : FrameId)
  | evalBody (d : Datum) (env : FrameId)

inductive RequestError where
  | program (e : ProgramError)
  | script (e : ScriptError)
  | form (e : RunError)
deriving DecidableEq, Repr

namespace Request

def frame (i : Interpreter) : Request → FrameId
  | .evalIn _ env | .evalBody _ env => env
  | _ => i.globalFrame

def dataOf (code : String) : List Datum := (Datum.readText code).toOption.getD []

def data : Request → List Datum
  | .run code => dataOf code
  | .runScript script => (script.content.toOption.map dataOf).getD []
  | .eval d | .evalGlobal d | .evalIn d _ | .evalBody d _ => [d]

end Request

/-- Does what a request asks for. A script yields unit. -/
def Interpreter.serve (fuel : Nat) (i : Interpreter) : Request → Action RequestError Value
  | .run code => (i.run fuel code).mapError .program
  | .runScript script => (i.runScript fuel script >>= fun _ => pure .unit).mapError .script
  | .eval d => (i.evalForm fuel d).mapError .form
  | .evalGlobal d => (i.evalGlobal fuel d).mapError .form
  | .evalIn d env => (ScopeLisp.eval fuel d env).mapError .form
  | .evalBody d env => ((ScopeLisp.eval fuel).body env d).mapError .form

/-- What an interpreter has come to, with the values that the host was given, last one first. -/
structure Session where
  state : State
  answers : List Value := []

namespace Session

/-- One request in a frame that exists, which ends with a value or an error. -/
inductive Next (i : Interpreter) (s : Session) : Session → Prop
  | answered {fuel : Nat} {request : Request} {v : Value} {t : State}
      (hframe : request.frame i < s.state.store.frames.size)
      (hrun : i.serve fuel request s.state = .value v t) : Next i s ⟨t, v :: s.answers⟩
  | failed {fuel : Nat} {request : Request} {e : RequestError} {t : State}
      (hframe : request.frame i < s.state.store.frames.size)
      (hrun : i.serve fuel request s.state = .error e t) : Next i s ⟨t, s.answers⟩

def Later (i : Interpreter) : Session → Session → Prop := Relation.ReflTransGen (Next i)

/-- The interpreter has just been made, and there is nothing else. -/
def Starts (i : Interpreter) (s : Session) : Prop :=
  ∃ console, (Interpreter.fresh ⟨{}, console⟩ : Outcome Empty Interpreter) = .value i s.state ∧
    s.answers = []

/-- The session comes from a new interpreter by any number of requests. -/
def Reached (i : Interpreter) (s : Session) : Prop := ∃ start, Starts i start ∧ Later i start s

end Session

/-! ## The store of a new interpreter -/

def Store.defineAll (s : Store) (f : FrameId) (entries : List (String × Value)) : Store :=
  entries.foldl (fun s e => s.define f e.1 e.2) s

def Store.fresh : Store :=
  (({} : Store).addFrame .global none).2.defineAll 0 globals

theorem Action.defineAll_apply {ε : Type} (f : FrameId) (entries : List (String × Value))
    (s : State) : (defineAll f entries : Action ε Unit) s =
      .value () ⟨s.store.defineAll f entries, s.console⟩ := by
  induction entries generalizing s with
  | nil => rfl
  | cons e entries ih =>
    show defineAll f entries ⟨s.store.define f e.1 e.2, s.console⟩ = _
    rw [ih]
    rfl

/-- The store with one more global frame. -/
def Store.withGlobal (s : Store) : Store :=
  (s.addFrame .global none).2.defineAll s.frames.size globals

theorem Interpreter.fresh_eq {ε : Type} (s : State) :
    (Interpreter.fresh s : Outcome ε Interpreter) =
      .value ⟨s.store.frames.size⟩ ⟨s.store.withGlobal, s.console⟩ := by
  unfold Interpreter.fresh
  simp only [Action.bind_apply, Action.newFrame, Action.defineAll_apply, Action.pure_apply]
  rfl

theorem Interpreter.fresh_apply {ε : Type} (console : Console) :
    (Interpreter.fresh ⟨{}, console⟩ : Outcome ε Interpreter) =
      .value ⟨0⟩ ⟨Store.fresh, console⟩ :=
  Interpreter.fresh_eq _

namespace Store

variable {s : Store} {f g : FrameId} {entries : List (String × Value)} {name : String} {v : Value}

theorem grows_defineAll : s.Grows (s.defineAll f entries) := by
  induction entries generalizing s with
  | nil => exact .refl
  | cons e entries ih => exact Grows.trans (.define .refl f e.1 e.2) ih

theorem defineAll_cons (s : Store) (f : FrameId) (e : String × Value)
    (entries : List (String × Value)) :
    s.defineAll f (e :: entries) = (s.define f e.1 e.2).defineAll f entries := rfl

theorem size_defineAll : (s.defineAll f entries).frames.size = s.frames.size := by
  induction entries generalizing s with
  | nil => rfl
  | cons e entries ih =>
    rw [defineAll_cons, ih, size_define]

theorem closures_defineAll : (s.defineAll f entries).closures = s.closures := by
  induction entries generalizing s with
  | nil => rfl
  | cons e entries ih => exact ih (s := s.define f e.1 e.2)

theorem parent?_defineAll : (s.defineAll f entries).parent? g = s.parent? g := by
  induction entries generalizing s with
  | nil => rfl
  | cons e entries ih =>
    rw [defineAll_cons, ih, parent?_define]

theorem get?_of_defineAll (h : ((s.defineAll f entries).own g).get? name = some v) :
    (s.own g).get? name = some v ∨ ∃ e ∈ entries, e.2 = v := by
  induction entries generalizing s with
  | nil => exact .inl h
  | cons e entries ih =>
    rcases ih (s := s.define f e.1 e.2) h with h | ⟨e', he', hv⟩
    · rcases get?_of_define h with ⟨-, rfl⟩ | h
      · exact .inr ⟨e, List.mem_cons_self, rfl⟩
      · exact .inl h
    · exact .inr ⟨e', List.mem_cons_of_mem _ he', hv⟩

theorem size_fresh : Store.fresh.frames.size = 1 := by
  rw [Store.fresh, size_defineAll]
  rfl

theorem closures_fresh : Store.fresh.closures = #[] := by
  rw [Store.fresh, closures_defineAll]
  rfl

theorem parent?_fresh (f : FrameId) : Store.fresh.parent? f = none := by
  rw [Store.fresh, parent?_defineAll, parent?_addFrame]
  split <;> rfl

theorem getElem?_fresh_zero : ∃ vars, Store.fresh.frames[0]? = some ⟨.global, none, vars⟩ := by
  have h : (({} : Store).addFrame .global none).2.frames[0]? = some ⟨.global, none, {}⟩ := rfl
  exact grows_defineAll.frame h

/-- A new interpreter knows no closures and no objects. -/
theorem isPlain_of_withGlobal (h : (s.withGlobal.own f).get? name = some v) :
    (s.own f).get? name = some v ∨ v.IsPlain := by
  rcases get?_of_defineAll h with h | ⟨e, he, rfl⟩
  · rw [own_addFrame] at h
    exact .inl h
  · have hall : ∀ e ∈ globals, e.2.kind ≠ .proc ∧ e.2.kind ≠ .object := by decide
    exact .inr (hall e he)

theorem isPlain_fresh (h : (Store.fresh.own f).get? name = some v) : v.IsPlain := by
  rcases isPlain_of_withGlobal (s := {}) h with h | h
  · cases h
  · exact h

end Store

/-! ## Requests keep disciplines -/

namespace Discipline

variable {D : Discipline} {i : Interpreter} {s : Store}

theorem evalGlobal_keeps (fuel : Nat) {d : Datum} (hs : D.Good s) (hi : D.Home s i.globalFrame)
    (hd : D.Code d) : D.Keeps s (i.evalGlobal fuel d) D.Fit := by
  refine .bind (.log hs) fun t _ ht _ => ?_
  exact (D.eval_keeps fuel).body ht.good (D.home_mono ht.grows ht.step hi) hd

theorem evalProgram_keeps (fuel : Nat) {ds : List Datum} {last : Value} (hs : D.Good s)
    (hi : D.Home s i.globalFrame) (hds : ∀ d ∈ ds, D.Code d) (hlast : D.Fit s last) :
    D.Keeps s (i.evalProgram fuel last ds) D.Fit := by
  induction ds generalizing s last with
  | nil => exact .pure hs hlast
  | cons d ds ih =>
    refine .bind (evalGlobal_keeps fuel hs hi (hds d List.mem_cons_self)) fun t v ht hv => ?_
    exact ih ht.good (D.home_mono ht.grows ht.step hi)
      (fun d' hd' => hds d' (List.mem_cons_of_mem _ hd')) hv

theorem run_keeps (fuel : Nat) {code : String} (hs : D.Good s) (hi : D.Home s i.globalFrame)
    (hcode : ∀ d ∈ Request.dataOf code, D.Code d) : D.Keeps s (i.run fuel code) D.Fit := by
  unfold Interpreter.run
  unfold Request.dataOf at hcode
  cases hread : Datum.readText code with
  | error e => exact .fail hs
  | ok ds =>
    rw [hread] at hcode
    exact .mapError (evalProgram_keeps fuel hs hi hcode (D.fit_plain ⟨nofun, nofun⟩))

theorem evalScript_keeps (fuel : Nat) {ds : List Datum} (hs : D.Good s)
    (hi : D.Home s i.globalFrame) (hds : ∀ d ∈ ds, D.Code d) :
    D.Keeps s (i.evalScript fuel ds) fun _ _ => True := by
  induction ds generalizing s with
  | nil => exact .pure hs trivial
  | cons d ds ih =>
    have hrest : ∀ d' ∈ ds, D.Code d' := fun d' hd' => hds d' (List.mem_cons_of_mem _ hd')
    have hd := evalGlobal_keeps fuel hs hi (hds d List.mem_cons_self)
    refine .bind (.attempt hd) fun t r ht _ => ?_
    have hit := D.home_mono ht.grows ht.step hi
    cases r with
    | ok v => exact ih ht.good hit hrest
    | error e =>
      refine .bind (.log ht.good) fun u _ hu _ => ?_
      refine .bind (.log hu.good) fun v _ hv _ => ?_
      refine .bind (.log hv.good) fun w _ hw _ => ?_
      have htw := hu.trans (hv.trans hw)
      refine .bind (ih hw.good (D.home_mono htw.grows htw.step hit) hrest) fun x _ hx _ => ?_
      exact .pure hx.good trivial

theorem runScript_keeps (fuel : Nat) {script : Script} (hs : D.Good s)
    (hi : D.Home s i.globalFrame) (hcode : ∀ d ∈ (Request.runScript script).data, D.Code d) :
    D.Keeps s (i.runScript fuel script) fun _ _ => True := by
  refine .bind (.log hs) fun t _ ht _ => ?_
  refine .bind (.mapError (.ofExcept (Q := fun _ code => script.content = .ok code) ht.good
    fun code h => h)) fun u code hu hcontent => ?_
  refine .bind (.mapError (.ofExcept (Q := fun _ ds => Datum.readText code = .ok ds) hu.good
    fun ds h => h)) fun w ds hw hread => ?_
  have hds : ∀ d ∈ ds, D.Code d := by
    simpa [Request.data, Request.dataOf, hcontent, hread, Except.toOption] using hcode
  have hsw := ht.trans (hu.trans hw)
  have hiw := D.home_mono hsw.grows hsw.step hi
  exact .bind (evalScript_keeps fuel hw.good hiw hds) fun x _ hx _ => .log hx.good

theorem serve_keeps (fuel : Nat) {request : Request} (hs : D.Good s)
    (hi : D.Home s (request.frame i)) (hcode : ∀ d ∈ request.data, D.Code d) :
    D.Keeps s (i.serve fuel request) D.Fit := by
  cases request with
  | run code => exact .mapError (run_keeps fuel hs hi hcode)
  | runScript script =>
    refine .mapError (.bind (runScript_keeps fuel hs hi hcode) fun t _ ht _ => ?_)
    exact .pure ht.good (D.fit_plain ⟨nofun, nofun⟩)
  | eval d => exact .mapError (D.eval_keeps fuel s d _ hs hi (hcode d List.mem_cons_self))
  | evalGlobal d => exact .mapError (evalGlobal_keeps fuel hs hi (hcode d List.mem_cons_self))
  | evalIn d env => exact .mapError (D.eval_keeps fuel s d env hs hi (hcode d List.mem_cons_self))
  | evalBody d env =>
    exact .mapError ((D.eval_keeps fuel).body hs hi (hcode d List.mem_cons_self))

/-- All data may be evaluated, in every frame that exists. -/
structure Total (D : Discipline) : Prop where
  home : ∀ {s f}, D.Good s → f < s.frames.size → D.Home s f
  code : ∀ d, D.Code d

/-- The law holds of the store, and the host holds no unfit values. -/
structure Upheld (D : Discipline) (s : Session) : Prop where
  good : D.Good s.state.store
  fit : ∀ v ∈ s.answers, D.Fit s.state.store v

end Discipline

/-! ## Sessions keep disciplines -/

namespace Session

variable {D : Discipline} {i : Interpreter} {s t : Session}

theorem Next.upheld (hD : D.Total) (hs : D.Upheld s) (h : Next i s t) :
    D.Upheld t ∧ D.Leads s.state.store t.state.store := by
  cases h with
  | @answered fuel request v t hframe hrun =>
    have hkeeps := Discipline.serve_keeps fuel hs.good (hD.home hs.good hframe)
      (fun d _ => hD.code d) s.state.console
    have hstate : (⟨s.state.store, s.state.console⟩ : State) = s.state := rfl
    rw [hstate, hrun] at hkeeps
    obtain ⟨hleads, hv⟩ := hkeeps
    refine ⟨⟨hleads.good, fun w hw => ?_⟩, hleads⟩
    rcases List.mem_cons.1 hw with rfl | hw
    · exact hv
    · exact D.fit_mono hleads.grows hleads.step (hs.fit w hw)
  | @failed fuel request e t hframe hrun =>
    have hkeeps := Discipline.serve_keeps fuel hs.good (hD.home hs.good hframe)
      (fun d _ => hD.code d) s.state.console
    have hstate : (⟨s.state.store, s.state.console⟩ : State) = s.state := rfl
    rw [hstate, hrun] at hkeeps
    have hleads : D.Leads s.state.store t.store := hkeeps
    exact ⟨⟨hleads.good, fun w hw => D.fit_mono hleads.grows hleads.step (hs.fit w hw)⟩, hleads⟩

theorem Later.upheld (hD : D.Total) (hs : D.Upheld s) (h : Later i s t) :
    D.Upheld t ∧ D.Leads s.state.store t.state.store := by
  induction h with
  | refl => exact ⟨hs, .refl hs.good⟩
  | tail _ hnext ih =>
    obtain ⟨hupheld, hleads⟩ := hnext.upheld hD ih.1
    exact ⟨hupheld, ih.2.trans hleads⟩

theorem Starts.eq (h : Starts i s) :
    i.globalFrame = 0 ∧ s.state.store = Store.fresh ∧ s.answers = [] := by
  obtain ⟨console, hfresh, hanswers⟩ := h
  rw [Interpreter.fresh_apply] at hfresh
  injection hfresh with hi hstate
  exact ⟨hi ▸ rfl, hstate ▸ rfl, hanswers⟩

/-- What holds of the store of a new interpreter, and is kept, holds of all sessions. -/
theorem Reached.upheld (hD : D.Total) (hfresh : D.Good Store.fresh) (h : Reached i s) :
    D.Upheld s ∧ D.Leads Store.fresh s.state.store := by
  obtain ⟨start, hstart, hlater⟩ := h
  obtain ⟨-, hstore, hanswers⟩ := hstart.eq
  have hupheld : D.Upheld start := by
    refine ⟨hstore ▸ hfresh, fun v hv => ?_⟩
    rw [hanswers] at hv
    cases hv
  exact hstore ▸ hlater.upheld hD hupheld

theorem Reached.globalFrame_eq (h : Reached i s) : i.globalFrame = 0 :=
  let ⟨_, hstart, _⟩ := h
  hstart.eq.1

/-- A new interpreter can run any program, and what comes of it is a session. -/
theorem reached_of_run {fuel : Nat} {code : String} {s : State}
    (h : (Interpreter.run fuel ⟨0⟩ code ⟨Store.fresh, {}⟩).after? = some s) :
    ∃ answers, Reached ⟨0⟩ ⟨s, answers⟩ := by
  have hstart : Starts ⟨0⟩ ⟨⟨Store.fresh, {}⟩, []⟩ := ⟨{}, Interpreter.fresh_apply {}, rfl⟩
  have hframe : (Request.run code).frame ⟨0⟩ < Store.fresh.frames.size := by
    rw [Store.size_fresh]
    exact Nat.one_pos
  cases hrun : Interpreter.run fuel ⟨0⟩ code ⟨Store.fresh, {}⟩ with
  | value v t =>
    rw [hrun] at h
    cases h
    refine ⟨[v], _, hstart, .single (@Next.answered _ _ fuel (.run code) _ _ hframe ?_)⟩
    simp only [Interpreter.serve, Action.mapError, hrun]
  | error e t =>
    rw [hrun] at h
    cases h
    refine ⟨[], _, hstart, .single (@Next.failed _ _ fuel (.run code) (.program e) _ hframe ?_)⟩
    simp only [Interpreter.serve, Action.mapError, hrun]
  | unfinished =>
    rw [hrun] at h
    cases h

end Session

end ScopeLisp

import ScopeLisp.Proofs.Growth
import ScopeLisp.Eval

/-!
# Disciplines

A `Discipline` is a law of stores together with what it takes for evaluation to keep it: which
frames may be seen and which may be written, which values may be handed around and which data may be
evaluated. Its proofs are about single reads and writes. `Discipline.eval_keeps` lifts them to every
evaluation, through all forms, calls and errors, by one case analysis of the forms and one induction
on the fuel. What differs from law to law is thus only the checks of the single writes.
-/

namespace ScopeLisp

/-- Is no handle into the store. -/
def Value.IsPlain (v : Value) : Prop := v.kind ≠ .proc ∧ v.kind ≠ .object

def Role.IsObject : Role → Prop
  | .classBody _ | .instanceOf _ => True
  | _ => False

/-- The object that a frame is made from: the class of an instance, or what a class extends. -/
def Role.origin? : Role → Option FrameId
  | .classBody base => base
  | .instanceOf cls => some cls
  | _ => none

theorem Role.isObject_of_origin? {role : Role} {o : FrameId} (h : role.origin? = some o) :
    role.IsObject := by
  cases role with
  | classBody | instanceOf => trivial
  | _ => cases h

/-- The data that a form evaluates, now or when what it makes is called. -/
def Form.parts : Form → List Datum
  | .number _ | .str _ | .reference _ => []
  | .declare _ value | .assign _ value => [value]
  | .setProperty object _ value => [object, value]
  | .property object _ => [object]
  | .block body => body
  | .branch condition consequence alternative => [condition, consequence, alternative]
  | .loop condition body => [condition, body]
  | .closure _ body => [body]
  | .classDef _ base body => [base, body]
  | .instantiate cls args => cls :: args
  | .call callee args => callee :: args
  | .expand d => [d]

/-- What `new` does before it needs the constructor: it yields the class, the frame of the new instance
and the arguments. -/
def Evaluator.prepare (eval : Evaluator) (env : FrameId) (cls : Datum) (args : List Datum) :
    Action RunError (FrameId × FrameId × List Value) := do
  let c ← eval cls env
  let cls ← Action.ofExcept (c.asObject "new")
  let frame ← Action.newFrame (.instanceOf cls) (some cls)
  let vs ← eval.values env args
  pure (cls, frame, vs)

/-- Looks the constructor up from the class and calls it for the instance. -/
def Evaluator.construct (eval : Evaluator) (cls frame : FrameId) (args : List Value) :
    Action RunError Value := do
  match ← Action.lookup cls "constructor" with
  | .proc id =>
    let _ ← eval.callProc "constructor" id (.object frame :: args)
    pure (.object frame)
  | v => .fail (.typeError "new" .proc v.kind)

theorem evalForm_instantiate (limit : Nat) (eval : Evaluator) (env : FrameId) (cls : Datum)
    (args : List Datum) : evalForm limit eval env (.instantiate cls args) =
      eval.prepare env cls args >>= fun r => eval.construct r.1 r.2.1 r.2.2 := by
  simp only [Evaluator.prepare, bind_assoc, pure_bind]
  rfl

/-- A law of stores that evaluation keeps. -/
structure Discipline where
  /-- Holds of all stores that evaluation passes through. -/
  Good : Store → Prop
  /-- What may become of a store, beyond its growth. -/
  Step : Store → Store → Prop
  /-- Frames that names may be looked up from and that closures and frames may be made in. -/
  Scope : Store → FrameId → Prop
  /-- Frames that names may be bound in. -/
  Home : Store → FrameId → Prop
  /-- Values that may be bound, passed and returned. -/
  Fit : Store → Value → Prop
  /-- Data that may be evaluated. -/
  Code : Datum → Prop
  step_refl : ∀ s, Step s s
  step_trans : ∀ {s t u}, Step s t → Step t u → Step s u
  scope_mono : ∀ {s t f}, s.Grows t → Step s t → Scope s f → Scope t f
  home_mono : ∀ {s t f}, s.Grows t → Step s t → Home s f → Home t f
  fit_mono : ∀ {s t v}, s.Grows t → Step s t → Fit s v → Fit t v
  scope_of_home : ∀ {s f}, Home s f → Scope s f
  parts : ∀ {d form}, Code d → Form.ofDatum d = .ok form → ∀ p ∈ form.parts, Code p
  fit_plain : ∀ {s v}, v.IsPlain → Fit s v
  fit_lookup : ∀ {s f name v}, Good s → Scope s f → s.lookup? f name = some v → Fit s v
  home_object : ∀ {s f}, Good s → Fit s (.object f) → Home s f
  closure : ∀ {s id c}, Good s → Fit s (.proc id) → s.closures[id]? = some c →
    Scope s c.scope ∧ Code c.body
  define : ∀ {s f v} (name : String), Good s → Home s f → Fit s v →
    Good (s.define f name v) ∧ Step s (s.define f name v)
  assign : ∀ {s env f name v}, Good s → Scope s env → s.owner? env name = some f → Fit s v →
    Good (s.define f name v) ∧ Step s (s.define f name v)
  addFrame : ∀ {s p} (role : Role), Good s → Scope s p →
    (∀ o, role.origin? = some o → o = p ∧ Fit s (.object o)) →
    Good (s.addFrame role (some p)).2 ∧ Step s (s.addFrame role (some p)).2 ∧
      Home (s.addFrame role (some p)).2 s.frames.size ∧
      (role.IsObject → Fit (s.addFrame role (some p)).2 (.object s.frames.size))
  addClosure : ∀ {s d params body env}, Good s → Home s env → Code d →
    Form.ofDatum d = .ok (.closure params body) →
    Good (s.addClosure ⟨params, body, env⟩).2 ∧ Step s (s.addClosure ⟨params, body, env⟩).2 ∧
      Fit (s.addClosure ⟨params, body, env⟩).2 (.proc s.closures.size)

namespace Discipline

variable {D : Discipline} {ε α β : Type}

/-- What a lawful run from `s` may leave behind. -/
structure Leads (D : Discipline) (s t : Store) : Prop where
  good : D.Good t
  grows : s.Grows t
  step : D.Step s t

theorem Leads.refl {s : Store} (h : D.Good s) : D.Leads s s := ⟨h, .refl, D.step_refl s⟩

theorem Leads.trans {s t u : Store} (h₁ : D.Leads s t) (h₂ : D.Leads t u) : D.Leads s u :=
  ⟨h₂.good, h₁.grows.trans h₂.grows, D.step_trans h₁.step h₂.step⟩

/-- An outcome with a lawful store, and with `Q` of its value if it has one. -/
def Leaves (D : Discipline) (s : Store) (Q : Store → α → Prop) : Outcome ε α → Prop
  | .value a t => D.Leads s t.store ∧ Q t.store a
  | .error _ t => D.Leads s t.store
  | .unfinished => True

/-- From the store `s` the action `x` leaves a lawful store however it ends, and a value with `Q` if
it ends with one. -/
def Keeps (D : Discipline) (s : Store) (x : Action ε α) (Q : Store → α → Prop) : Prop :=
  ∀ c, D.Leaves s Q (x ⟨s, c⟩)

namespace Keeps

variable {s : Store} {Q : Store → α → Prop} {R : Store → β → Prop}

/-- What is known of an action that came to an end. -/
theorem of_result? {x : Action ε α} {c : Console} {r : Except ε α} {t : State}
    (hx : D.Keeps s x Q) (h : (x ⟨s, c⟩).result? = some (r, t)) :
    D.Leads s t.store ∧ ∀ a, r = .ok a → Q t.store a := by
  have hxc := hx c
  cases hr : x ⟨s, c⟩ with
  | value a u =>
    rw [hr] at hxc h
    cases h
    exact ⟨hxc.1, fun b hb => Except.ok.inj hb ▸ hxc.2⟩
  | error e u =>
    rw [hr] at hxc h
    cases h
    exact ⟨hxc, fun b hb => nomatch hb⟩
  | unfinished =>
    rw [hr] at h
    cases h

/-! ## Rules of the combinators -/

theorem pure {a : α} (hs : D.Good s) (ha : Q s a) : D.Keeps s (pure a : Action ε α) Q :=
  fun _ => ⟨.refl hs, ha⟩

theorem fail {e : ε} (hs : D.Good s) : D.Keeps s (.fail e) Q := fun _ => Leads.refl hs

theorem spent : D.Keeps s (.spent : Action ε α) Q := fun _ => trivial

theorem ofExcept {r : Except ε α} (hs : D.Good s) (h : ∀ a, r = .ok a → Q s a) :
    D.Keeps s (.ofExcept r) Q := by
  cases r with
  | ok a => exact pure hs (h a rfl)
  | error e => exact fail hs

theorem bind {x : Action ε α} {f : α → Action ε β} (hx : D.Keeps s x Q)
    (hf : ∀ t a, D.Leads s t → Q t a → D.Keeps t (f a) R) : D.Keeps s (x >>= f) R := by
  intro c
  have hxc := hx c
  rw [Action.bind_apply]
  cases hr : x ⟨s, c⟩ with
  | value a t =>
    rw [hr] at hxc
    have hfc := hf t.store a hxc.1 hxc.2 t.console
    show D.Leaves s R (f a t)
    cases hfr : f a t with
    | value b u =>
      rw [hfr] at hfc
      exact ⟨hxc.1.trans hfc.1, hfc.2⟩
    | error e u =>
      rw [hfr] at hfc
      exact hxc.1.trans hfc
    | unfinished => trivial
  | error e t =>
    rw [hr] at hxc
    exact hxc
  | unfinished => trivial

theorem attempt {δ : Type} {x : Action ε α} (hx : D.Keeps s x Q) :
    D.Keeps s (x.attempt : Action δ (Except ε α)) fun t r => ∀ a, r = .ok a → Q t a := by
  intro c
  have hxc := hx c
  unfold Action.attempt
  cases hr : x ⟨s, c⟩ with
  | value a t =>
    rw [hr] at hxc
    exact ⟨hxc.1, fun b hb => Except.ok.inj hb ▸ hxc.2⟩
  | error e t =>
    rw [hr] at hxc
    exact ⟨hxc, fun b hb => nomatch hb⟩
  | unfinished => trivial

theorem mapError {δ : Type} {g : ε → δ} {x : Action ε α} (hx : D.Keeps s x Q) :
    D.Keeps s (x.mapError g) Q := by
  intro c
  have hxc := hx c
  unfold Action.mapError
  cases hr : x ⟨s, c⟩ with
  | value a t =>
    rw [hr] at hxc
    exact hxc
  | error e t =>
    rw [hr] at hxc
    exact hxc
  | unfinished => trivial

/-! ## Rules of the single reads and writes -/

theorem lookup {env : FrameId} {name : String} (hs : D.Good s) (henv : D.Scope s env) :
    D.Keeps s (.lookup env name) D.Fit := by
  intro c
  unfold Action.lookup
  cases hv : s.lookup? env name with
  | some v => exact ⟨.refl hs, D.fit_lookup hs henv hv⟩
  | none => exact .refl hs

/-- A lawful write, in a frame that is declared in or in one that is assigned to. -/
theorem of_define {f : FrameId} {name : String} {v : Value}
    (h : D.Good (s.define f name v) ∧ D.Step s (s.define f name v)) (hv : D.Fit s v) :
    D.Keeps s (.define f name v : Action ε Value) D.Fit := by
  intro c
  have hgrows : Store.Grows s (s.define f name v) := .define .refl f name v
  exact ⟨⟨h.1, hgrows, h.2⟩, D.fit_mono hgrows h.2 hv⟩

theorem define {f : FrameId} {name : String} {v : Value} (hs : D.Good s) (hf : D.Home s f)
    (hv : D.Fit s v) : D.Keeps s (.define f name v : Action ε Value) D.Fit :=
  .of_define (D.define name hs hf hv) hv

theorem defineAll {f : FrameId} {entries : List (String × Value)} (hs : D.Good s)
    (hf : D.Home s f) (hv : ∀ e ∈ entries, D.Fit s e.2) :
    D.Keeps s (.defineAll f entries : Action ε Unit) fun _ _ => True := by
  induction entries generalizing s with
  | nil => exact pure hs trivial
  | cons e entries ih =>
    refine bind (define hs hf (hv e List.mem_cons_self)) fun t _ ht _ => ?_
    refine ih ht.good (D.home_mono ht.grows ht.step hf) fun e' he' => ?_
    exact D.fit_mono ht.grows ht.step (hv e' (List.mem_cons_of_mem _ he'))

theorem assign {env : FrameId} {name : String} {v : Value} (hs : D.Good s)
    (henv : D.Scope s env) (hv : D.Fit s v) :
    D.Keeps s (.assign env name v) D.Fit := by
  intro c
  unfold Action.assign
  cases hf : s.owner? env name with
  | some f => exact of_define (D.assign hs henv hf hv) hv c
  | none => exact .refl hs

theorem newFrame {role : Role} {p : FrameId} (hs : D.Good s) (hp : D.Scope s p)
    (horigin : ∀ o, role.origin? = some o → o = p ∧ D.Fit s (.object o)) :
    D.Keeps s (.newFrame role (some p) : Action ε FrameId) fun t f =>
      D.Home t f ∧ (role.IsObject → D.Fit t (.object f)) := by
  intro c
  obtain ⟨hgood, hstep, hhome, hfit⟩ := D.addFrame role hs hp horigin
  exact ⟨⟨hgood, .addFrame .refl role (some p), hstep⟩, hhome, hfit⟩

theorem newClosure {d body : Datum} {params : List String} {env : FrameId} (hs : D.Good s)
    (henv : D.Home s env) (hd : D.Code d) (hform : Form.ofDatum d = .ok (.closure params body)) :
    D.Keeps s (.newClosure ⟨params, body, env⟩ : Action ε ClosureId) fun t id =>
      D.Fit t (.proc id) := by
  intro c
  obtain ⟨hgood, hstep, hfit⟩ := D.addClosure hs henv hd hform
  exact ⟨⟨hgood, .addClosure .refl _, hstep⟩, hfit⟩

theorem closure? {id : ClosureId} (hs : D.Good s) (hid : D.Fit s (.proc id)) :
    D.Keeps s (.closure? id : Action ε (Option Closure)) fun t r =>
      ∀ c, r = some c → D.Scope t c.scope ∧ D.Code c.body :=
  fun _ => ⟨.refl hs, fun _ hc => D.closure hs hid hc⟩

theorem asObject {operation : String} {o : Value} (hs : D.Good s) (ho : D.Fit s o) :
    D.Keeps s (.ofExcept (o.asObject operation)) fun t f => D.Home t f ∧ D.Fit t (.object f) := by
  refine ofExcept hs fun f hf => ?_
  cases o <;> cases hf
  exact ⟨D.home_object hs ho, ho⟩

theorem asBase {env : FrameId} {b : Value} (hs : D.Good s) (hb : D.Fit s b)
    (henv : D.Home s env) :
    D.Keeps s (.ofExcept b.asBase) fun t base =>
      D.Scope t (base.getD env) ∧ ∀ o, base = some o → o = base.getD env ∧ D.Fit t (.object o) := by
  refine ofExcept hs fun base hbase => ?_
  cases b <;> cases hbase
  · exact ⟨D.scope_of_home henv, nofun⟩
  · refine ⟨D.scope_of_home (D.home_object hs hb), fun o ho => ?_⟩
    cases ho
    exact ⟨rfl, hb⟩

theorem name {form : String} {d : Datum} (hs : D.Good s) :
    D.Keeps s (.ofExcept (Form.nameIn form d)) fun _ _ => True :=
  ofExcept hs fun _ _ => trivial

theorem log {level : Level} {line : String} (hs : D.Good s) :
    D.Keeps s (.log level line : Action ε Unit) fun _ _ => True :=
  fun _ => ⟨.refl hs, trivial⟩

end Keeps

/-! ## Native procedures yield no handles -/

theorem isPlain_of_onNumbers {operation : String} {f : Float → Float → Value} {a b v : Value}
    (hf : ∀ x y, (f x y).IsPlain) (h : Value.onNumbers operation f a b = .ok v) : v.IsPlain := by
  unfold Value.onNumbers at h
  split at h
  · next x y =>
    cases h
    exact hf x y
  · cases h

theorem isPlain_of_add {a b v : Value} (h : a.add b = .ok v) : v.IsPlain := by
  unfold Value.add at h
  split at h <;> cases h <;> exact ⟨nofun, nofun⟩

theorem isPlain_of_neg {a v : Value} (h : a.neg = .ok v) : v.IsPlain := by
  unfold Value.neg at h
  split at h <;> cases h
  exact ⟨nofun, nofun⟩

/-- Yields no handle and leaves the store as it is, or fails and changes nothing. -/
def YieldsPlain (x : Action RunError Value) : Prop :=
  ∀ s c, (∃ v c', x ⟨s, c⟩ = .value v ⟨s, c'⟩ ∧ v.IsPlain) ∨ ∃ e, x ⟨s, c⟩ = .error e ⟨s, c⟩

theorem YieldsPlain.ofExcept {r : Except RunError Value} (h : ∀ v, r = .ok v → v.IsPlain) :
    YieldsPlain (.ofExcept r) := by
  intro s c
  cases r with
  | ok v => exact .inl ⟨v, c, rfl, h v rfl⟩
  | error e => exact .inr ⟨e, rfl⟩

theorem YieldsPlain.onTwo (op : Native) {f : Value → Value → Except RunError Value}
    (hf : ∀ a b v, f a b = .ok v → v.IsPlain) (args : List Value) : YieldsPlain (op.onTwo f args) := by
  unfold Native.onTwo
  split
  · next a b => exact .ofExcept (hf a b)
  · exact fun s c => .inr ⟨_, rfl⟩

theorem YieldsPlain.native (op : Native) (args : List Value) : YieldsPlain (op.call args) := by
  have number : ∀ {operation : String} {f : Float → Float → Float} (a b v : Value),
      Value.onNumbers operation (fun x y => .number (f x y)) a b = .ok v → v.IsPlain :=
    fun _ _ _ => isPlain_of_onNumbers fun _ _ => ⟨nofun, nofun⟩
  have test : ∀ {operation : String} {f : Float → Float → Bool} (a b v : Value),
      Value.compare operation f a b = .ok v → v.IsPlain :=
    fun _ _ _ => isPlain_of_onNumbers fun _ _ => ⟨nofun, nofun⟩
  unfold Native.call
  split
  · exact onTwo _ (fun _ _ _ => isPlain_of_add) _
  · exact .ofExcept fun v hv => isPlain_of_neg hv
  · exact onTwo _ number _
  · exact onTwo _ number _
  · exact onTwo _ number _
  · exact onTwo _ test _
  · exact onTwo _ test _
  · exact onTwo _ test _
  · exact onTwo _ test _
  · refine onTwo _ (fun a b v h => ?_) _
    cases h
    exact ⟨nofun, nofun⟩
  · exact fun s c => .inl ⟨.unit, _, rfl, nofun, nofun⟩

theorem Keeps.native {s : Store} {op : Native} {args : List Value} (hs : D.Good s) :
    D.Keeps s (op.call args) D.Fit := by
  intro c
  rcases YieldsPlain.native op args s c with ⟨v, c', h, hv⟩ | ⟨e, h⟩ <;> rw [h]
  · exact ⟨.refl hs, D.fit_plain hv⟩
  · exact Leads.refl hs

/-! ## Evaluation -/

/-- The evaluator keeps the law wherever it is started lawfully. -/
def Obeyed (D : Discipline) (eval : Evaluator) : Prop :=
  ∀ s d env, D.Good s → D.Home s env → D.Code d → D.Keeps s (eval d env) D.Fit

namespace Obeyed

variable {eval : Evaluator} {s : Store} {env : FrameId}

theorem block (h : D.Obeyed eval) {ds : List Datum} {last : Value} (hs : D.Good s)
    (henv : D.Home s env) (hds : ∀ d ∈ ds, D.Code d) (hlast : D.Fit s last) :
    D.Keeps s (eval.block env last ds) D.Fit := by
  induction ds generalizing s last with
  | nil => exact .pure hs hlast
  | cons d ds ih =>
    refine .bind (h s d env hs henv (hds d List.mem_cons_self)) fun t v ht hv => ?_
    exact ih ht.good (D.home_mono ht.grows ht.step henv)
      (fun d' hd' => hds d' (List.mem_cons_of_mem _ hd')) hv

theorem values (h : D.Obeyed eval) {ds : List Datum} (hs : D.Good s) (henv : D.Home s env)
    (hds : ∀ d ∈ ds, D.Code d) :
    D.Keeps s (eval.values env ds) fun t vs => ∀ v ∈ vs, D.Fit t v := by
  induction ds generalizing s with
  | nil => exact .pure hs fun v hv => nomatch hv
  | cons d ds ih =>
    refine .bind (h s d env hs henv (hds d List.mem_cons_self)) fun t v ht hv => ?_
    refine .bind (ih ht.good (D.home_mono ht.grows ht.step henv)
      fun d' hd' => hds d' (List.mem_cons_of_mem _ hd')) fun u vs hu hvs => ?_
    refine .pure hu.good fun w hw => ?_
    rcases List.mem_cons.1 hw with rfl | hw
    · exact D.fit_mono hu.grows hu.step hv
    · exact hvs w hw

theorem body (h : D.Obeyed eval) {d : Datum} (hs : D.Good s) (henv : D.Home s env)
    (hd : D.Code d) : D.Keeps s (eval.body env d) D.Fit := by
  unfold Evaluator.body
  split
  · next ds => exact h.block hs henv (D.parts hd rfl) (D.fit_plain ⟨nofun, nofun⟩)
  · exact h s d env hs henv hd

theorem loop (h : D.Obeyed eval) {condition d : Datum} (hc : D.Code condition) (hd : D.Code d)
    (limit : Nat) {last : Value} (hs : D.Good s) (henv : D.Home s env) (hlast : D.Fit s last) :
    D.Keeps s (eval.loop env condition d limit last) D.Fit := by
  induction limit generalizing s last with
  | zero => exact .spent
  | succ limit ih =>
    refine .bind (h s condition env hs henv hc) fun t test ht _ => ?_
    have henvt := D.home_mono ht.grows ht.step henv
    split
    · refine .bind (h t d env ht.good henvt hd) fun u v hu hv => ?_
      exact ih hu.good (D.home_mono hu.grows hu.step henvt) hv
    · exact .pure ht.good (D.fit_mono ht.grows ht.step hlast)

/-- What a call does in its frame. -/
theorem enter (h : D.Obeyed eval) {frame : FrameId} {entries : List (String × Value)} {d : Datum}
    (hs : D.Good s) (hframe : D.Home s frame) (hentries : ∀ e ∈ entries, D.Fit s e.2)
    (hd : D.Code d) :
    D.Keeps s (Action.defineAll frame entries >>= fun _ => eval.body frame d) D.Fit :=
  .bind (.defineAll hs hframe hentries) fun _ _ ht _ =>
    h.body ht.good (D.home_mono ht.grows ht.step hframe) hd

theorem callClosure (h : D.Obeyed eval) {callee : String} {c : Closure} {args : List Value}
    (hs : D.Good s) (hscope : D.Scope s c.scope) (hbody : D.Code c.body)
    (hargs : ∀ v ∈ args, D.Fit s v) : D.Keeps s (eval.callClosure callee c args) D.Fit := by
  unfold Evaluator.callClosure
  split
  · refine .bind (.newFrame hs hscope nofun) fun t frame ht hframe => ?_
    have hentries : ∀ e ∈ c.params.zip args, D.Fit t e.2 := fun e he =>
      D.fit_mono ht.grows ht.step (hargs e.2 (List.of_mem_zip he).2)
    exact h.enter ht.good hframe.1 hentries hbody
  · exact .fail hs

theorem callProc (h : D.Obeyed eval) {callee : String} {id : ClosureId} {args : List Value}
    (hs : D.Good s) (hid : D.Fit s (.proc id)) (hargs : ∀ v ∈ args, D.Fit s v) :
    D.Keeps s (eval.callProc callee id args) D.Fit := by
  refine .bind (.closure? hs hid) fun t r ht hr => ?_
  cases r with
  | none => exact .fail ht.good
  | some c =>
    obtain ⟨hscope, hbody⟩ := hr c rfl
    exact h.callClosure ht.good hscope hbody fun v hv => D.fit_mono ht.grows ht.step (hargs v hv)

theorem call (h : D.Obeyed eval) {head : Datum} {callee : Value} {args : List Value}
    (hs : D.Good s) (hcallee : D.Fit s callee) (hargs : ∀ v ∈ args, D.Fit s v) :
    D.Keeps s (eval.call head callee args) D.Fit := by
  cases callee with
  | native op => exact .native hs
  | proc id => exact h.callProc hs hcallee hargs
  | _ => exact .fail hs

/-! ## Forms -/

/-- A `begin` binds in a frame of its own, so its own frame need not be one to bind in. -/
theorem newBlock (h : D.Obeyed eval) {ds : List Datum} {limit : Nat} (hs : D.Good s)
    (henv : D.Scope s env) (hds : ∀ d ∈ ds, D.Code d) :
    D.Keeps s (evalForm limit eval env (.block ds)) D.Fit := by
  refine .bind (.newFrame hs henv nofun) fun t f ht hf => ?_
  exact h.block ht.good hf.1 hds (D.fit_plain ⟨nofun, nofun⟩)

theorem setProperty (h : D.Obeyed eval) {object name value : Datum} {limit : Nat}
    (hs : D.Good s) (henv : D.Home s env) (hobject : D.Code object) (hvalue : D.Code value) :
    D.Keeps s (evalForm limit eval env (.setProperty object name value)) D.Fit := by
  refine .bind (h s object env hs henv hobject) fun t o ht ho => ?_
  refine .bind (.asObject ht.good ho) fun u f hu hf => ?_
  refine .bind (.name hu.good) fun w name hw _ => ?_
  have htw := hu.trans hw
  have henvw := D.home_mono htw.grows htw.step (D.home_mono ht.grows ht.step henv)
  refine .bind (h w value env hw.good henvw hvalue) fun x v hx hv => ?_
  have hux := hw.trans hx
  exact .define hx.good (D.home_mono hux.grows hux.step hf.1) hv

theorem property (h : D.Obeyed eval) {object name : Datum} {limit : Nat} (hs : D.Good s)
    (henv : D.Home s env) (hobject : D.Code object) :
    D.Keeps s (evalForm limit eval env (.property object name)) D.Fit := by
  refine .bind (h s object env hs henv hobject) fun t o ht ho => ?_
  refine .bind (.asObject ht.good ho) fun u f hu hf => ?_
  refine .bind (.name hu.good) fun w name hw _ => ?_
  exact .lookup hw.good (D.scope_of_home (D.home_mono hw.grows hw.step hf.1))

theorem classDef (h : D.Obeyed eval) {name : String} {base body : Datum} {limit : Nat}
    (hs : D.Good s) (henv : D.Home s env) (hbase : D.Code base) (hbody : D.Code body) :
    D.Keeps s (evalForm limit eval env (.classDef name base body)) D.Fit := by
  refine .bind (h s base env hs henv hbase) fun t b ht hb => ?_
  have henvt := D.home_mono ht.grows ht.step henv
  refine .bind (.asBase ht.good hb henvt) fun u b hu hb => ?_
  refine .bind (.newFrame hu.good hb.1 hb.2) fun w f hw hf => ?_
  refine .bind (h.body hw.good hf.1 hbody) fun x _ hx _ => ?_
  have htx := hu.trans (hw.trans hx)
  have hobject : D.Fit x (.object f) := D.fit_mono hx.grows hx.step (hf.2 trivial)
  exact .define hx.good (D.home_mono htx.grows htx.step henvt) hobject

theorem prepare (h : D.Obeyed eval) {cls : Datum} {args : List Datum} (hs : D.Good s)
    (henv : D.Home s env) (hcls : D.Code cls) (hargs : ∀ d ∈ args, D.Code d) :
    D.Keeps s (eval.prepare env cls args) fun t r =>
      D.Fit t (.object r.1) ∧ ∀ v ∈ Value.object r.2.1 :: r.2.2, D.Fit t v := by
  refine .bind (h s cls env hs henv hcls) fun t c ht hc => ?_
  refine .bind (.asObject ht.good hc) fun u cls hu hcls => ?_
  have horigin : ∀ o, (Role.instanceOf cls).origin? = some o → o = cls ∧ D.Fit u (.object o) := by
    intro o ho
    cases ho
    exact ⟨rfl, hcls.2⟩
  refine .bind (.newFrame hu.good (D.scope_of_home hcls.1) horigin) fun w f hw hf => ?_
  have hsw := ht.trans (hu.trans hw)
  refine .bind (h.values hw.good (D.home_mono hsw.grows hsw.step henv) hargs) fun x vs hx hvs => ?_
  have hux := hw.trans hx
  refine .pure hx.good ⟨D.fit_mono hux.grows hux.step hcls.2, fun v hv => ?_⟩
  rcases List.mem_cons.1 hv with rfl | hv
  · exact D.fit_mono hx.grows hx.step (hf.2 trivial)
  · exact hvs v hv

theorem construct (h : D.Obeyed eval) {cls f : FrameId} {vs : List Value} (hs : D.Good s)
    (hcls : D.Fit s (.object cls)) (hvs : ∀ v ∈ Value.object f :: vs, D.Fit s v) :
    D.Keeps s (eval.construct cls f vs) D.Fit := by
  refine .bind (.lookup hs (D.scope_of_home (D.home_object hs hcls))) fun t constructor ht hc => ?_
  split
  · have hfit : ∀ v ∈ Value.object f :: vs, D.Fit t v :=
      fun v hv => D.fit_mono ht.grows ht.step (hvs v hv)
    refine .bind (h.callProc ht.good hc hfit) fun u _ hu _ => ?_
    exact .pure hu.good (D.fit_mono hu.grows hu.step (hfit _ List.mem_cons_self))
  · exact .fail ht.good

theorem instantiate (h : D.Obeyed eval) {cls : Datum} {args : List Datum} {limit : Nat}
    (hs : D.Good s) (henv : D.Home s env) (hcls : D.Code cls) (hargs : ∀ d ∈ args, D.Code d) :
    D.Keeps s (evalForm limit eval env (.instantiate cls args)) D.Fit := by
  rw [evalForm_instantiate]
  exact .bind (h.prepare hs henv hcls hargs) fun t r ht hr => h.construct ht.good hr.1 hr.2

theorem evalForm (h : D.Obeyed eval) {d : Datum} {form : Form} {limit : Nat} (hs : D.Good s)
    (henv : D.Home s env) (hd : D.Code d) (hform : Form.ofDatum d = .ok form) :
    D.Keeps s (evalForm limit eval env form) D.Fit := by
  have hparts := D.parts hd hform
  cases form with
  | number x => exact .pure hs (D.fit_plain ⟨nofun, nofun⟩)
  | str text => exact .pure hs (D.fit_plain ⟨nofun, nofun⟩)
  | reference name => exact .lookup hs (D.scope_of_home henv)
  | declare name value =>
    refine .bind (h s value env hs henv (hparts _ (by simp [Form.parts]))) fun t v ht hv => ?_
    exact .define ht.good (D.home_mono ht.grows ht.step henv) hv
  | assign name value =>
    refine .bind (h s value env hs henv (hparts _ (by simp [Form.parts]))) fun t v ht hv => ?_
    exact .assign ht.good (D.scope_of_home (D.home_mono ht.grows ht.step henv)) hv
  | setProperty object name value =>
    exact h.setProperty hs henv (hparts _ (by simp [Form.parts])) (hparts _ (by simp [Form.parts]))
  | property object name => exact h.property hs henv (hparts _ (by simp [Form.parts]))
  | block ds => exact h.newBlock hs (D.scope_of_home henv) hparts
  | branch condition consequence alternative =>
    have hcondition := hparts condition (by simp [Form.parts])
    refine .bind (h s condition env hs henv hcondition) fun t test ht _ => ?_
    refine h t _ env ht.good (D.home_mono ht.grows ht.step henv) (hparts _ ?_)
    split <;> simp [Form.parts]
  | loop condition body =>
    exact h.loop (hparts _ (by simp [Form.parts])) (hparts _ (by simp [Form.parts])) limit hs henv
      (D.fit_plain ⟨nofun, nofun⟩)
  | closure params body =>
    refine .bind (.newClosure hs henv hd hform) fun t id ht hid => ?_
    exact .pure ht.good hid
  | classDef name base body =>
    exact h.classDef hs henv (hparts _ (by simp [Form.parts])) (hparts _ (by simp [Form.parts]))
  | instantiate cls args =>
    exact h.instantiate hs henv (hparts _ List.mem_cons_self)
      fun d hd => hparts d (List.mem_cons_of_mem _ hd)
  | call head args =>
    refine .bind (h s head env hs henv (hparts _ List.mem_cons_self)) fun t callee ht hcallee => ?_
    refine .bind (h.values ht.good (D.home_mono ht.grows ht.step henv)
      fun d hd => hparts d (List.mem_cons_of_mem _ hd)) fun u vs hu hvs => ?_
    exact h.call hu.good (D.fit_mono hu.grows hu.step hcallee) hvs
  | expand d => exact h s d env hs henv (hparts _ List.mem_cons_self)

theorem evalDatum (h : D.Obeyed eval) (limit : Nat) : D.Obeyed (evalDatum limit eval) := by
  intro s d env hs henv hd
  unfold ScopeLisp.evalDatum
  cases hform : Form.ofDatum d with
  | ok form => exact h.evalForm hs henv hd hform
  | error e => exact .fail hs

end Obeyed

/-- Every evaluation keeps every discipline. -/
theorem eval_keeps (D : Discipline) (fuel : Nat) : D.Obeyed (eval fuel) := by
  induction fuel with
  | zero => exact fun s d env _ _ _ => .spent
  | succ fuel ih => exact ih.evalDatum fuel

end Discipline

end ScopeLisp

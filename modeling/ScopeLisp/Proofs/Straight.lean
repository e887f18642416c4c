import ScopeLisp.Eval.Fuel
import ScopeLisp.Proofs.FormParts
import ScopeLisp.Proofs.Inheritance
import ScopeLisp.Proofs.Readable

/-!
# Programs that come to an end

A program is straight if no list in it is headed by `while`, `lambda` or `def`. It makes no closures, so
where none is bound it has none to call (`Discipline.procless`), and evaluation only ever descends into
parts of the program. What it descends into has fewer lists in it (`Datum.Offers.smaller`). This is so for
the nested `if`s of a `switch` too: each `if` takes the place of a clause, and the list of the `switch`
itself goes. So a straight program ends, with no more fuel than it has lists
(`Store.Calm.ends_of_straight`).
-/

namespace ScopeLisp

namespace Datum

mutual

/-- The number of lists in a datum. -/
def lists : Datum → Nat
  | .list items => listsAll items + 1
  | _ => 0

def listsAll : List Datum → Nat
  | [] => 0
  | d :: ds => d.lists + listsAll ds

end

/-- No list in the datum, at any depth, is headed by `while`, `lambda` or `def`. -/
def IsStraight (d : Datum) : Prop :=
  ∀ part, Inside part d → ∀ tag ∈ ["while", "lambda", "def"], part.tag? ≠ some tag

variable {d p : Datum} {items ds : List Datum}

theorem lists_le_listsAll (h : d ∈ items) : d.lists ≤ listsAll items := by
  induction items with
  | nil => cases h
  | cons e items ih =>
    rw [listsAll]
    rcases List.mem_cons.1 h with rfl | h
    · exact Nat.le_add_right _ _
    · exact Nat.le_trans (ih h) (Nat.le_add_left _ _)

theorem lists_lt_of_mem (h : d ∈ items) : d.lists < (list items).lists := by
  rw [lists]
  exact Nat.lt_succ_of_le (lists_le_listsAll h)

theorem Inside.trans {q : Datum} (hqp : Inside q p) (hpd : Inside p d) : Inside q d := by
  induction hpd with
  | self => exact hqp
  | item _ hd ih => exact .item ih hd

theorem IsStraight.item (h : (list items).IsStraight) (hd : d ∈ items) : d.IsStraight :=
  fun part hpart => h part (hpart.trans (.item .self hd))

@[simp] theorem isStraight_number (x : Float) : (number x).IsStraight := by
  intro part hpart
  cases hpart
  exact fun _ _ => nofun

@[simp] theorem isStraight_str (text : String) : (str text).IsStraight := by
  intro part hpart
  cases hpart
  exact fun _ _ => nofun

@[simp] theorem isStraight_symbol (name : String) : (symbol name).IsStraight := by
  intro part hpart
  cases hpart
  exact fun _ _ => nofun

theorem isStraight_list_iff : (list items).IsStraight ↔
    (∀ tag ∈ ["while", "lambda", "def"], (list items).tag? ≠ some tag) ∧
      ∀ d ∈ items, d.IsStraight := by
  constructor
  · exact fun h => ⟨h _ .self, fun d hd => h.item hd⟩
  · rintro ⟨hhead, hitems⟩ part hpart
    cases hpart with
    | self => exact hhead
    | item h hd => exact hitems _ hd part h

/-! ## What is evaluated has fewer lists -/

theorem clause_smaller {condition result : Datum} (hd : d.IsStraight)
    (h : clause d = .ok (condition, result)) : condition.IsStraight ∧ result.IsStraight ∧
      condition.lists + result.lists + 1 = d.lists := by
  unfold clause at h
  split at h
  · cases h
    refine ⟨hd.item (by simp), hd.item (by simp), ?_⟩
    simp [lists, listsAll]
  · cases h

/-- An `if` has as many lists as the clause that it is made from. -/
theorem nestClauses_smaller (hds : ∀ d ∈ ds, d.IsStraight) (h : nestClauses ds = .ok p) :
    p.IsStraight ∧ p.lists < listsAll ds := by
  fun_induction nestClauses ds generalizing p with
  | case1 => cases h
  | case2 last =>
    obtain ⟨⟨condition, result⟩, hclause, h⟩ := Except.exists_of_bind h
    obtain ⟨-, hresult, hlists⟩ := clause_smaller (hds last List.mem_cons_self) hclause
    split at h
    · next heq =>
      cases heq
      cases h
      refine ⟨hresult, ?_⟩
      rw [listsAll, listsAll]
      omega
    · cases h
  | case3 first rest _ ih =>
    obtain ⟨alternative, halternative, h⟩ := Except.exists_of_bind h
    obtain ⟨⟨condition, result⟩, hclause, h⟩ := Except.exists_of_bind h
    obtain ⟨hrest, hsmaller⟩ := ih (fun d hd => hds d (List.mem_cons_of_mem _ hd)) halternative
    obtain ⟨hcondition, hresult, hlists⟩ := clause_smaller (hds first List.mem_cons_self) hclause
    split at h
    · cases h
    · next heq =>
      cases heq
      cases h
      constructor
      · simp [isStraight_list_iff, tag?, hcondition, hresult, hrest]
      · simp only [lists, listsAll] at hlists ⊢
        omega

theorem Offers.smaller (h : d.Offers p) (hd : d.IsStraight) : p.IsStraight ∧ p.lists < d.lists := by
  cases h with
  | item hp => exact ⟨hd.item hp, lists_lt_of_mem hp⟩
  | inner hinner hp =>
    exact ⟨(hd.item hinner).item hp, Nat.lt_trans (lists_lt_of_mem hp) (lists_lt_of_mem hinner)⟩
  | @switch clauses p h =>
    obtain ⟨hp, hsmaller⟩ := nestClauses_smaller (fun c hc => hd.item (List.mem_cons_of_mem _ hc)) h
    refine ⟨hp, ?_⟩
    rw [lists, listsAll]
    omega
  | definition h =>
    unfold expandDef at h
    split at h
    · next heq =>
      cases heq
      exact absurd rfl (hd _ .self "def" (by simp))
    · cases h

end Datum

/-! ## The forms of a straight program -/

namespace Form

/-- The forms that go round or make closures, with the symbol that heads them. -/
inductive Bent : Form → String → Prop
  | loop {condition body : Datum} : Bent (.loop condition body) "while"
  | closure {params : List String} {body : Datum} : Bent (.closure params body) "lambda"

theorem Bent.tag_eq {tag keyword : String} {operands : List Datum} {form : Form}
    (h : ofTag tag operands = .ok form) (hform : form.Bent keyword) : tag = keyword := by
  unfold ofTag at h
  split at h
  -- `var`
  · split at h
    · obtain ⟨name, -, h⟩ := Except.exists_of_bind h
      cases h
      cases hform
    · cases h
  -- `set`
  · split at h
    · split at h <;> cases h
      cases hform
    · obtain ⟨name, -, h⟩ := Except.exists_of_bind h
      cases h
      cases hform
    · cases h
  -- `prop`
  · split at h <;> cases h
    cases hform
  -- `begin`
  · cases h
    cases hform
  -- `if`
  · split at h <;> cases h
    cases hform
  -- `while`
  · split at h <;> cases h
    cases hform
    rfl
  -- `lambda`
  · split at h
    · obtain ⟨names, -, h⟩ := Except.exists_of_bind h
      cases h
      cases hform
      rfl
    · cases h
    · cases h
  -- `class`
  · split at h
    · obtain ⟨name, -, h⟩ := Except.exists_of_bind h
      cases h
      cases hform
    · cases h
  -- `new`
  · split at h <;> cases h
    cases hform
  -- `switch`
  · cases hd : Datum.expandSwitch (.list (.symbol "switch" :: operands)) <;> rw [hd] at h <;> cases h
    cases hform
  -- `def`
  · cases hd : Datum.expandDef (.list (.symbol "def" :: operands)) <;> rw [hd] at h <;> cases h
    cases hform
  -- a call
  · cases h
    cases hform

theorem Bent.tag?_eq {d : Datum} {keyword : String} {form : Form} (h : ofDatum d = .ok form)
    (hform : form.Bent keyword) : d.tag? = some keyword := by
  unfold ofDatum at h
  split at h
  iterate 3
    · cases h
      cases hform
  · cases h
  · rw [← hform.tag_eq h]
    rfl
  · cases h
    cases hform

end Form

theorem Datum.IsStraight.not_bent {d : Datum} (hd : d.IsStraight) {form : Form}
    (h : Form.ofDatum d = .ok form) {keyword : String} : ¬ form.Bent keyword := by
  intro hform
  have htag := hform.tag?_eq h
  cases hform with
  | loop => exact hd d .self "while" (by simp) htag
  | closure => exact hd d .self "lambda" (by simp) htag

/-! ## Without closures -/

/-- No name is bound to a closure. -/
def Store.NoProcs (s : Store) : Prop := ∀ f name v, (s.own f).get? name = some v → v.kind ≠ .proc

theorem Store.NoProcs.define {s : Store} (h : s.NoProcs) (f : FrameId) (name : String) {v : Value}
    (hv : v.kind ≠ .proc) : (s.define f name v).NoProcs := by
  intro g other w hw
  rcases get?_of_define hw with ⟨-, rfl⟩ | hw
  · exact hv
  · exact h g other w hw

/-- Straight programs make no closures. -/
def Discipline.procless : Discipline where
  Good := Store.NoProcs
  Step s t := t.closures = s.closures
  Scope _ _ := True
  Home _ _ := True
  Fit _ v := v.kind ≠ .proc
  Code := Datum.IsStraight
  step_refl _ := rfl
  step_trans h₁ h₂ := h₂.trans h₁
  scope_mono _ _ _ := trivial
  home_mono _ _ _ := trivial
  fit_mono _ _ hv := hv
  scope_of_home _ := trivial
  parts hd h p hp := ((Form.offers_of_ofDatum h hp).smaller hd).1
  fit_plain h := h.1
  fit_lookup hs _ hv :=
    let ⟨f, _, hf⟩ := Store.mem_chain_of_lookup? hv
    hs f _ _ hf
  home_object _ _ := trivial
  closure _ hid _ := absurd rfl hid
  define name hs _ hv := ⟨hs.define _ name hv, rfl⟩
  assign hs _ _ hv := ⟨hs.define _ _ hv, rfl⟩
  addFrame {s p} role hs _ _ := by
    have hgood : (s.addFrame role (some p)).2.NoProcs := by
      intro f name v hv
      rw [Store.own_addFrame] at hv
      exact hs f name v hv
    exact ⟨hgood, rfl, trivial, nofun⟩
  addClosure _ _ hd hform := absurd .closure (hd.not_bent hform)

/-! ## Coming to an end -/

/-- From the store `s` the action comes to an end. -/
def Action.EndsFrom {ε α : Type} (x : Action ε α) (s : Store) : Prop := ∀ c, (x ⟨s, c⟩).Ends

/-- Makes no closures, comes to an end, and has `Q` of its value. -/
structure Action.Finishes {ε α : Type} (s : Store) (x : Action ε α) (Q : Store → α → Prop) : Prop where
  keeps : Discipline.procless.Keeps s x Q
  ends : x.EndsFrom s

namespace Action

variable {ε α β : Type} {s : Store} {x : Action ε α} {f : α → Action ε β} {Q : Store → α → Prop}

theorem EndsFrom.ofExcept (r : Except ε α) : (Action.ofExcept r).EndsFrom s := by
  cases r <;> exact fun _ => trivial

theorem EndsFrom.lookup (env : FrameId) (name : String) : (Action.lookup env name).EndsFrom s := by
  intro c
  rw [Action.lookup]
  split <;> trivial

theorem EndsFrom.assign (env : FrameId) (name : String) (v : Value) :
    (Action.assign env name v).EndsFrom s := by
  intro c
  rw [Action.assign]
  split <;> trivial

theorem Finishes.bind (hx : Finishes s x Q)
    (hf : ∀ t a, t.NoProcs → Q t a → (f a).EndsFrom t) : (x >>= f).EndsFrom s := by
  intro c
  have hends := hx.ends c
  have hkeeps := hx.keeps c
  rw [bind_apply]
  cases hr : x ⟨s, c⟩ with
  | value a t =>
    rw [hr] at hkeeps
    exact hf t.store a hkeeps.1.good hkeeps.2 t.console
  | error e t => trivial
  | unfinished =>
    rw [hr] at hends
    exact hends.elim

end Action

theorem Native.call_endsFrom (op : Native) (args : List Value) (s : Store) :
    (op.call args).EndsFrom s := by
  intro c
  rcases Discipline.YieldsPlain.native op args s c with ⟨v, c', h, -⟩ | ⟨e, h⟩ <;> rw [h] <;>
    trivial

/-- The datum can be evaluated with this fuel. -/
structure Datum.Within (fuel : Nat) (d : Datum) : Prop where
  straight : d.IsStraight
  lt : d.lists < fuel

namespace Datum.Within

theorem item {fuel : Nat} {items : List Datum} (h : (list items).Within fuel) {d : Datum}
    (hd : d ∈ items) : d.Within fuel :=
  ⟨h.straight.item hd, Nat.lt_trans (lists_lt_of_mem hd) h.lt⟩

theorem parts {fuel : Nat} {d : Datum} (h : d.Within (fuel + 1)) {form : Form}
    (hform : Form.ofDatum d = .ok form) : ∀ p ∈ form.parts, p.Within fuel := by
  intro p hp
  obtain ⟨hstraight, hlt⟩ := (Form.offers_of_ofDatum hform hp).smaller h.straight
  exact ⟨hstraight, Nat.lt_of_lt_of_le hlt (Nat.le_of_lt_succ h.lt)⟩

end Datum.Within

/-- Where no closures are bound, the evaluator comes to an end with all data that fit its fuel. -/
def EndsWithin (fuel : Nat) : Prop :=
  ∀ (s : Store) (d : Datum) (env : FrameId), s.NoProcs → d.Within fuel → (eval fuel d env).EndsFrom s

namespace EndsWithin

variable {fuel : Nat} {s : Store} {env : FrameId} {d : Datum} {ds : List Datum}

theorem finishes (h : EndsWithin fuel) (hs : s.NoProcs) (hd : d.Within fuel) :
    (eval fuel d env).Finishes s fun _ v => v.kind ≠ .proc :=
  ⟨Discipline.procless.eval_keeps fuel s d env hs trivial hd.straight, h s d env hs hd⟩

theorem block (h : EndsWithin fuel) (hs : s.NoProcs) (hds : ∀ d ∈ ds, d.Within fuel) (last : Value) :
    ((eval fuel).block env last ds).EndsFrom s := by
  induction ds generalizing s last with
  | nil => exact fun _ => trivial
  | cons d ds ih =>
    obtain ⟨hd, hds⟩ := List.forall_mem_cons.1 hds
    exact (h.finishes hs hd).bind fun t v ht _ => ih ht hds v

theorem values (h : EndsWithin fuel) (hs : s.NoProcs) (hds : ∀ d ∈ ds, d.Within fuel) :
    ((eval fuel).values env ds).Finishes s fun _ vs => ∀ v ∈ vs, v.kind ≠ .proc := by
  refine ⟨(Discipline.procless.eval_keeps fuel).values hs trivial fun d hd => (hds d hd).straight, ?_⟩
  induction ds generalizing s with
  | nil => exact fun _ => trivial
  | cons d ds ih =>
    obtain ⟨hd, hds⟩ := List.forall_mem_cons.1 hds
    refine (h.finishes hs hd).bind fun t v ht _ => ?_
    have hkeeps : Discipline.procless.Keeps t ((eval fuel).values env ds) _ :=
      (Discipline.procless.eval_keeps fuel).values ht trivial fun d hd => (hds d hd).straight
    exact Action.Finishes.bind ⟨hkeeps, ih ht hds⟩ fun _ _ _ _ _ => trivial

theorem body (h : EndsWithin fuel) (hs : s.NoProcs) (hd : d.Within fuel) :
    ((eval fuel).body env d).Finishes s fun _ v => v.kind ≠ .proc := by
  refine ⟨(Discipline.procless.eval_keeps fuel).body hs trivial hd.straight, ?_⟩
  unfold Evaluator.body
  split
  · next ds => exact h.block hs (fun p hp => hd.item (List.mem_cons_of_mem _ hp)) .unit
  · exact h s d env hs hd

theorem newFrame {role : Role} {parent : Option FrameId} {f : FrameId → Action RunError Value}
    (hs : s.NoProcs) (hf : ∀ t i, t.NoProcs → (f i).EndsFrom t) :
    (Action.newFrame role parent >>= f).EndsFrom s := by
  intro c
  refine hf (s.addFrame role parent).2 s.frames.size ?_ c
  intro g name v hv
  rw [Store.own_addFrame] at hv
  exact hs g name v hv

/-- The constructor is no closure, so it is not called. -/
theorem construct (hs : s.NoProcs) (cls frame : FrameId) (vs : List Value) :
    ((eval fuel).construct cls frame vs).EndsFrom s := by
  refine Action.Finishes.bind ⟨.lookup hs trivial, .lookup cls "constructor"⟩ fun t v ht hv => ?_
  split
  · exact absurd rfl hv
  · exact fun _ => trivial

theorem evalForm (h : EndsWithin fuel) (hs : s.NoProcs) {form : Form} {limit : Nat}
    (hparts : ∀ p ∈ form.parts, p.Within fuel) (hform : ∀ keyword, ¬ form.Bent keyword) :
    (ScopeLisp.evalForm limit (eval fuel) env form).EndsFrom s := by
  cases form with
  | number x => exact fun _ => trivial
  | str text => exact fun _ => trivial
  | reference name => exact .lookup env name
  | declare name value =>
    exact (h.finishes hs (hparts value (by simp [Form.parts]))).bind fun _ _ _ _ _ => trivial
  | assign name value =>
    exact (h.finishes hs (hparts value (by simp [Form.parts]))).bind fun t v _ _ => .assign env name v
  | setProperty object name value =>
    refine (h.finishes hs (hparts object (by simp [Form.parts]))).bind fun t o ht ho => ?_
    refine Action.Finishes.bind ⟨.asObject ht ho, .ofExcept _⟩ fun u f hu _ => ?_
    refine Action.Finishes.bind ⟨.name hu, .ofExcept _⟩ fun w name hw _ => ?_
    exact (h.finishes hw (hparts value (by simp [Form.parts]))).bind fun _ _ _ _ _ => trivial
  | property object name =>
    refine (h.finishes hs (hparts object (by simp [Form.parts]))).bind fun t o ht ho => ?_
    refine Action.Finishes.bind ⟨.asObject ht ho, .ofExcept _⟩ fun u f hu _ => ?_
    exact Action.Finishes.bind ⟨.name hu, .ofExcept _⟩ fun w name _ _ => .lookup f name
  | block ds => exact newFrame hs fun t i ht => h.block ht hparts .unit
  | branch condition consequence alternative =>
    refine (h.finishes hs (hparts condition (by simp [Form.parts]))).bind fun t test ht _ => ?_
    refine h t _ env ht (hparts _ ?_)
    split <;> simp [Form.parts]
  | loop condition body => exact absurd .loop (hform "while")
  | closure params body => exact absurd .closure (hform "lambda")
  | classDef name base body =>
    refine (h.finishes hs (hparts base (by simp [Form.parts]))).bind fun t b ht hb => ?_
    have hbase := @Discipline.Keeps.asBase Discipline.procless t env b ht hb trivial
    refine Action.Finishes.bind ⟨hbase, .ofExcept _⟩ fun u b hu _ => ?_
    refine newFrame hu fun w i hw => ?_
    exact (h.body hw (hparts body (by simp [Form.parts]))).bind fun _ _ _ _ _ => trivial
  | instantiate cls args =>
    obtain ⟨hcls, hargs⟩ := List.forall_mem_cons.1 hparts
    refine (h.finishes hs hcls).bind fun t c ht hc => ?_
    refine Action.Finishes.bind ⟨.asObject ht hc, .ofExcept _⟩ fun u cls hu _ => ?_
    refine newFrame hu fun w i hw => ?_
    exact (h.values hw hargs).bind fun x vs hx _ => construct hx cls i vs
  | call callee args =>
    obtain ⟨hcallee, hargs⟩ := List.forall_mem_cons.1 hparts
    refine (h.finishes hs hcallee).bind fun t f ht hf => ?_
    refine (h.values ht hargs).bind fun u vs hu _ => ?_
    cases f with
    | native op => exact op.call_endsFrom vs u
    | proc id => exact absurd rfl hf
    | _ => exact fun _ => trivial
  | expand d => exact h s d env hs (hparts d List.mem_cons_self)

end EndsWithin

/-- The data that a form evaluates have fewer lists, so fuel for the number of lists is enough. -/
theorem endsWithin (fuel : Nat) : EndsWithin fuel := by
  induction fuel with
  | zero => exact fun s d env _ hd => absurd hd.lt (Nat.not_lt_zero _)
  | succ fuel ih =>
    intro s d env hs hd
    rw [eval_succ]
    unfold evalDatum
    cases hform : Form.ofDatum d with
    | error e => exact fun _ => trivial
    | ok form => exact ih.evalForm hs (hd.parts hform) fun _ => hd.straight.not_bent hform

/-! ## Sequences of evaluations -/

/-- A sound store in which no name is bound to a closure. -/
structure Store.Calm (s : Store) : Prop extends Sound s where
  noProcs : s.NoProcs

theorem Store.Calm.fresh : Store.fresh.Calm :=
  { Linked.fresh.sound with noProcs := fun _ _ _ hv => (isPlain_fresh hv).1 }

/-- A straight program has been evaluated in a frame that was there. -/
def State.StraightStep (s t : State) : Prop :=
  ∃ (fuel : Nat) (d : Datum) (env : FrameId) (r : Except RunError Value), d.IsStraight ∧
    env < s.store.frames.size ∧ (eval fuel d env s).result? = some (r, t)

/-- With all fuel from some amount on the evaluation ends in the same way, with `r` in the state `t`. -/
def EndsWith (d : Datum) (env : FrameId) (s : State) (r : Except RunError Value) (t : State) : Prop :=
  ∀ fuel, d.lists < fuel → (eval fuel d env s).result? = some (r, t)

namespace Store.Calm

variable {s t : State} {d : Datum} {env : FrameId} {fuel : Nat} {r : Except RunError Value}

theorem of_result? (h : s.store.Calm) (hd : d.IsStraight) (henv : env < s.store.frames.size)
    (hrun : (eval fuel d env s).result? = some (r, t)) :
    t.store.Calm ∧ t.store.closures = s.store.closures ∧ ∀ v, r = .ok v → v.kind ≠ .proc := by
  have hprocless := Discipline.procless.eval_keeps fuel s.store d env h.noProcs trivial hd
  have hsound := Discipline.sound.eval_keeps fuel s.store d env h.toSound henv trivial
  obtain ⟨hleads, hfit⟩ := hprocless.of_result? hrun
  exact ⟨{ (hsound.of_result? hrun).1.good with noProcs := hleads.good }, hleads.step, hfit⟩

theorem exists_endsWith (h : s.store.Calm) (hd : d.IsStraight) (env : FrameId) :
    ∃ r t, EndsWith d env s r t := by
  have hends := endsWithin (d.lists + 1) s.store d env h.noProcs ⟨hd, Nat.lt_succ_self _⟩ s.console
  have hsame : ∀ fuel, d.lists < fuel → eval fuel d env s = eval (d.lists + 1) d env s := by
    intro fuel hfuel
    refine eval_eq_of_le hfuel fun hrun => ?_
    rw [show (⟨s.store, s.console⟩ : State) = s from rfl, hrun] at hends
    exact hends
  unfold EndsWith
  cases hrun : eval (d.lists + 1) d env s with
  | value v t => exact ⟨.ok v, t, fun fuel hfuel => by rw [hsame fuel hfuel, hrun]; rfl⟩
  | error e t => exact ⟨.error e, t, fun fuel hfuel => by rw [hsame fuel hfuel, hrun]; rfl⟩
  | unfinished =>
    rw [show (⟨s.store, s.console⟩ : State) = s from rfl, hrun] at hends
    exact hends.elim

/-- **Programs without loops and procedures end.** In a sound store that binds no closure, a straight
program ends in every frame that exists, with a value or with an error, and it takes no more fuel than the
program has lists. It makes no closure and yields none, and the store it leaves is sound again and binds
none. So whatever straight programs are evaluated one after the other, each of them ends. -/
theorem ends_of_straight (h : s.store.Calm) (hd : d.IsStraight) (henv : env < s.store.frames.size) :
    (∃ r t, EndsWith d env s r t ∧ t.store.Calm ∧ t.store.closures = s.store.closures ∧
      ∀ v, r = .ok v → v.kind ≠ .proc) ∧
    ∀ t, Relation.ReflTransGen State.StraightStep s t → t.store.Calm ∧
      ∀ d' env', d'.IsStraight → env' < t.store.frames.size → ∃ r u, EndsWith d' env' t r u := by
  constructor
  · obtain ⟨r, t, hends⟩ := h.exists_endsWith hd env
    have hrun := hends (d.lists + 1) (Nat.lt_succ_self _)
    exact ⟨r, t, hends, h.of_result? hd henv hrun⟩
  · intro t hsteps
    have ht : t.store.Calm := by
      induction hsteps with
      | refl => exact h
      | tail _ hstep ih =>
        obtain ⟨fuel, d, env, r, hd, henv, hrun⟩ := hstep
        exact (ih.of_result? hd henv hrun).1
    exact ⟨ht, fun d' env' hd' _ => ht.exists_endsWith hd' env'⟩

end Store.Calm

/-- The second condition takes away what the first one looks at, and then the constructor turns out to be
a native procedure, which `new` does not call. -/
theorem Store.Calm.ends_of_straight_switch :
    let classDef : Datum := .list [.symbol "class", .symbol "A", .symbol "null",
      .list [.symbol "var", .symbol "constructor", .symbol "print"]]
    let switch : Datum := .list [.symbol "switch",
      .list [.list [.symbol "=", .symbol "VERSION", .symbol "A"], .number 1],
      .list [.list [.symbol "set", .symbol "VERSION", .str ""], .number 2],
      .list [.symbol "else", .list [.symbol "new", .symbol "A", .symbol "VERSION"]]]
    ∃ t u, EndsWith classDef 0 ⟨Store.fresh, {}⟩ (.ok (.object 1)) t ∧
      t.store.Calm ∧ switch.IsStraight ∧ 0 < t.store.frames.size ∧
      EndsWith switch 0 t (.error (.typeError "new" .proc .native)) u ∧ u.store.Calm := by
  intro classDef switch
  have hclass : classDef.IsStraight := by simp [classDef, Datum.isStraight_list_iff, Datum.tag?]
  have hswitch : switch.IsStraight := by simp [switch, Datum.isStraight_list_iff, Datum.tag?]
  let t : State := (eval 10 classDef 0 ⟨Store.fresh, {}⟩).after?.getD {}
  let u : State := (eval 10 switch 0 t).after?.getD {}
  obtain ⟨hsize, hrun, hsize', hrun', hlists⟩ :
      0 < Store.fresh.frames.size ∧
      (eval 10 classDef 0 ⟨Store.fresh, {}⟩).result? = some (.ok (.object 1), t) ∧
      0 < t.store.frames.size ∧
      (eval 10 switch 0 t).result? = some (.error (.typeError "new" .proc .native), u) ∧
      classDef.lists < 10 ∧ switch.lists < 10 := by decide +kernel
  clear_value t u
  obtain ⟨⟨r, t', hends, ht, -⟩, -⟩ :=
    Store.Calm.ends_of_straight (s := ⟨Store.fresh, {}⟩) .fresh hclass hsize
  cases (hends 10 hlists.1).symm.trans hrun
  obtain ⟨⟨r, u', hends', hu, -⟩, -⟩ := ht.ends_of_straight hswitch hsize'
  cases (hends' 10 hlists.2).symm.trans hrun'
  exact ⟨t, u, hends, ht, hswitch, hsize', hends', hu⟩

end ScopeLisp

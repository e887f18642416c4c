import ScopeLisp.Proofs.ClassChain
import ScopeLisp.Proofs.PropertyWrites

/-!
# Instances and what they inherit

A form `(new class argument ...)` makes a frame in that of the class, then evaluates the arguments, and
only then looks for the constructor, which it calls with the object of the new frame put first. It has a
value just if all of this succeeds, and the value is the object (`eval_new_eq_value_iff`). The frame stays
in that of the class. So what it does not own itself, it has from the class, in all states that there may
be afterwards (`Store.Sound.instantiation`). Here no frame need be the outermost of all: it is enough that
links have no way back and that nothing dangles (`Store.Sound`).
-/

namespace ScopeLisp

namespace Store

/-- No frame is inside of itself, and nothing dangles. -/
structure Sound (s : Store) : Prop extends Acyclic s, Whole s

/-- So the stores of all sessions are sound, by `Session.Reached.linked`. -/
theorem Linked.sound {s : Store} (h : s.Linked) : s.Sound := { h.acyclic, h.whole with }

/-- Nothing is linked to a new frame, so there is no way back to it. -/
theorem Acyclic.addFrame {s : Store} (h : s.Acyclic) (role : Role) {p : FrameId}
    (hp : p < s.frames.size) : (s.addFrame role (some p)).2.Acyclic := by
  have hlink : ∀ f q, (s.addFrame role (some p)).2.Inside f q →
      q < s.frames.size ∧ (f < s.frames.size → s.Inside f q) := by
    intro f q hq
    rw [Inside, parent?_addFrame] at hq
    split at hq
    · next hf =>
      cases hq
      exact ⟨hp, fun hlt => absurd hf (Nat.ne_of_lt hlt)⟩
    · exact ⟨h.parent_lt f q hq, fun _ => hq⟩
  refine ⟨fun f q hq => ?_, fun f hf => ?_⟩
  · rw [size_addFrame]
    exact Nat.lt_succ_of_lt (hlink f q hq).1
  · have hlt : f < s.frames.size := by
      cases hf with
      | single hq => exact (hlink _ _ hq).1
      | tail _ hq => exact (hlink _ _ hq).1
    have hold : ∀ g, Relation.TransGen (s.addFrame role (some p)).2.Inside f g →
        g < s.frames.size ∧ Relation.TransGen s.Inside f g := by
      intro g hg
      induction hg with
      | single hq => exact ⟨(hlink _ _ hq).1, .single ((hlink _ _ hq).2 hlt)⟩
      | tail _ hq ih => exact ⟨(hlink _ _ hq).1, ih.2.tail ((hlink _ _ hq).2 ih.1)⟩
    exact h.irrefl f (hold f hf).2

namespace Sound

variable {s : Store}

theorem define (h : s.Sound) (f : FrameId) (name : String) {v : Value} (hv : s.Holds v) :
    (s.define f name v).Sound where
  toAcyclic := h.toAcyclic.grows_of_size (.define .refl f name v) (size_define s f name v)
  toWhole := h.toWhole.define f name hv

theorem addFrame (h : s.Sound) (role : Role) {p : FrameId} (hp : p < s.frames.size) :
    (s.addFrame role (some p)).2.Sound where
  toAcyclic := h.toAcyclic.addFrame role hp
  toWhole := h.toWhole.addFrame role (some p)

theorem addClosure (h : s.Sound) {c : Closure} (hc : c.scope < s.frames.size) :
    (s.addClosure c).2.Sound where
  toAcyclic := h.toAcyclic.grows_of_size (.addClosure .refl c) rfl
  toWhole := h.toWhole.addClosure hc

end Sound

end Store

/-- Names are only looked up from, and bound in, frames that exist, and no frame gets inside of itself. -/
def Discipline.sound : Discipline where
  __ := Discipline.linked
  Good := Store.Sound
  fit_lookup hs _ hv :=
    let ⟨f, _, hf⟩ := Store.mem_chain_of_lookup? hv
    hs.value f _ _ hf
  home_object _ hf := hf
  closure hs _ hc := ⟨hs.scope _ _ hc, trivial⟩
  define name hs _ hv := ⟨hs.define _ name hv, trivial⟩
  assign hs _ _ hv := ⟨hs.define _ _ hv, trivial⟩
  addFrame {s p} role hs hp _ := by
    have hnew : s.frames.size < (s.addFrame role (some p)).2.frames.size := by simp
    exact ⟨hs.addFrame role hp, trivial, hnew, fun _ => hnew⟩
  addClosure {s d params body env} hs henv _ _ := by
    have hnew : s.closures.size < (s.addClosure ⟨params, body, env⟩).2.closures.size := by simp
    exact ⟨hs.addClosure henv, trivial, hnew⟩

/-! ## What `new` does -/

/-- In `env` an instance of what `c` is evaluated to is made, with the values of `args`. The constructor is
the one that is in sight of the class once these are known. It is called once, and what it yields is of no
matter. -/
inductive Instantiates (eval : Evaluator) (env : FrameId) (c : Datum) (args : List Datum) (s : State) :
    FrameId → FrameId → State → Prop
  | intro {u r t : State} {cls owner : FrameId} {vs : List Value} {id : ClosureId} {k : Closure}
      {w : Value} (hclass : eval c env s = .value (.object cls) u)
      (hargs : eval.InTurn env ⟨(u.store.addFrame (.instanceOf cls) (some cls)).2, u.console⟩ args vs r)
      (howner : r.store.FirstOwner "constructor" cls owner)
      (hproc : (r.store.own owner).get? "constructor" = some (.proc id))
      (hclosure : r.store.closures[id]? = some k)
      (hcall : eval.callClosure "constructor" k (.object u.store.frames.size :: vs) r = .value w t) :
      Instantiates eval env c args s cls u.store.frames.size t

section Instantiation

variable {eval : Evaluator} {env cls i : FrameId} {c : Datum} {args : List Datum} {vs : List Value}
  {s r t : State} {v : Value}

theorem ofExcept_asObject_eq_value_iff {operation : String} {f : FrameId} :
    Action.ofExcept (v.asObject operation) s = .value f t ↔ v = .object f ∧ t = s := by
  cases v with
  | object g =>
    show Outcome.value g s = .value f t ↔ _
    rw [Outcome.value.injEq, Value.object.injEq, eq_comm (a := s)]
  | _ => exact iff_of_false nofun nofun

theorem prepare_eq_value_iff : eval.prepare env c args s = .value (cls, i, vs) r ↔
    ∃ u, eval c env s = .value (.object cls) u ∧ i = u.store.frames.size ∧
      eval.InTurn env ⟨(u.store.addFrame (.instanceOf cls) (some cls)).2, u.console⟩ args vs r := by
  unfold Evaluator.prepare
  constructor
  · intro h
    obtain ⟨v, u, hclass, hafter⟩ := Action.bind_eq_value_iff.1 h
    obtain ⟨f, u', hobject, hmake⟩ := Action.bind_eq_value_iff.1 hafter
    obtain ⟨rfl, rfl⟩ := ofExcept_asObject_eq_value_iff.1 hobject
    obtain ⟨g, u'', hframe, hrest⟩ := Action.bind_eq_value_iff.1 hmake
    obtain ⟨ws, x, hvalues, hpure⟩ := Action.bind_eq_value_iff.1 hrest
    cases hframe
    cases hpure
    exact ⟨_, hclass, rfl, Evaluator.values_eq_value_iff.1 hvalues⟩
  · rintro ⟨u, hclass, rfl, hargs⟩
    refine Action.bind_eq_value_iff.2 ⟨_, u, hclass, ?_⟩
    refine Action.bind_eq_value_iff.2 ⟨cls, u, ofExcept_asObject_eq_value_iff.2 ⟨rfl, rfl⟩, ?_⟩
    refine Action.bind_eq_value_iff.2 ⟨_, _, rfl, ?_⟩
    exact Action.bind_eq_value_iff.2 ⟨vs, r, Evaluator.values_eq_value_iff.2 hargs, rfl⟩

theorem lookup_eq_value_iff {f : FrameId} {name : String} (hs : s.store.Acyclic) :
    Action.lookup f name s = .value v t ↔
      t = s ∧ ∃ o, s.store.FirstOwner name f o ∧ (s.store.own o).get? name = some v := by
  have hvalue : Action.lookup f name s = .value v t ↔ t = s ∧ s.store.lookup? f name = some v := by
    rw [Action.lookup, eq_comm (a := t)]
    cases s.store.lookup? f name <;> simp [and_comm]
  rw [hvalue, Store.lookup?_eq_bind_owner?, Option.bind_eq_some_iff]
  constructor
  · rintro ⟨rfl, o, howner, hget⟩
    exact ⟨rfl, o, hs.firstOwner howner, hget⟩
  · rintro ⟨rfl, o, howner, hget⟩
    exact ⟨rfl, o, howner.owner?_eq, hget⟩

theorem callProc_eq_value_iff {callee : String} {id : ClosureId} :
    eval.callProc callee id vs s = .value v t ↔
      ∃ k, s.store.closures[id]? = some k ∧ eval.callClosure callee k vs s = .value v t := by
  rw [Evaluator.callProc, Action.bind_apply, Action.closure?]
  cases s.store.closures[id]? with
  | none => exact iff_of_false nofun nofun
  | some k => simp

theorem construct_eq_value_iff (hr : r.store.Acyclic) : eval.construct cls i vs r = .value v t ↔
    v = .object i ∧ ∃ owner id k w, r.store.FirstOwner "constructor" cls owner ∧
      (r.store.own owner).get? "constructor" = some (.proc id) ∧ r.store.closures[id]? = some k ∧
      eval.callClosure "constructor" k (.object i :: vs) r = .value w t := by
  unfold Evaluator.construct
  constructor
  · intro h
    obtain ⟨g, u, hlookup, hrest⟩ := Action.bind_eq_value_iff.1 h
    obtain ⟨rfl, owner, howner, hget⟩ := (lookup_eq_value_iff hr).1 hlookup
    split at hrest
    · next id =>
      obtain ⟨w, t', hproc, hpure⟩ := Action.bind_eq_value_iff.1 hrest
      cases hpure
      obtain ⟨k, hclosure, hcall⟩ := callProc_eq_value_iff.1 hproc
      exact ⟨rfl, owner, id, k, w, howner, hget, hclosure, hcall⟩
    · cases hrest
  · rintro ⟨rfl, owner, id, k, w, howner, hproc, hclosure, hcall⟩
    refine Action.bind_eq_value_iff.2 ⟨.proc id, r, ?_, ?_⟩
    · exact (lookup_eq_value_iff hr).2 ⟨rfl, owner, howner, hproc⟩
    · exact Action.bind_eq_value_iff.2 ⟨w, t, callProc_eq_value_iff.2 ⟨k, hclosure, hcall⟩, rfl⟩

end Instantiation

variable {fuel : Nat} {env cls i : FrameId} {c : Datum} {args : List Datum} {s t u : State} {v : Value}

theorem sound_of_prepare {r : State} {x : FrameId × FrameId × List Value} (hs : s.store.Sound)
    (henv : env < s.store.frames.size) (h : (eval fuel).prepare env c args s = .value x r) :
    r.store.Sound := by
  have hargs : ∀ d ∈ args, Discipline.sound.Code d := fun _ _ => trivial
  have hc : Discipline.sound.Code c := trivial
  have hkeeps := (Discipline.sound.eval_keeps fuel).prepare hs henv hc hargs s.console
  rw [h] at hkeeps
  exact hkeeps.1.good

/-- `new` has a value just if an instance is made, and the value is the instance. -/
theorem eval_new_eq_value_iff (hs : s.store.Sound) (henv : env < s.store.frames.size) :
    eval (fuel + 1) (.list (.symbol "new" :: c :: args)) env s = .value v t ↔
      ∃ cls i, v = .object i ∧ Instantiates (eval fuel) env c args s cls i t := by
  rw [eval_new, Action.bind_eq_value_iff]
  constructor
  · rintro ⟨⟨cls, i, vs⟩, r, hprepare, hconstruct⟩
    have hr : r.store.Acyclic := (sound_of_prepare hs henv hprepare).toAcyclic
    obtain ⟨rfl, owner, id, k, w, howner, hproc, hclosure, hcall⟩ :=
      (construct_eq_value_iff hr).1 hconstruct
    obtain ⟨u, hclass, rfl, hargs⟩ := prepare_eq_value_iff.1 hprepare
    exact ⟨cls, _, rfl, .intro hclass hargs howner hproc hclosure hcall⟩
  · rintro ⟨cls, i, rfl, hnew⟩
    cases hnew with
    | @intro u r t cls owner vs id k w hclass hargs howner hproc hclosure hcall =>
      have hprepare : (eval fuel).prepare env c args s = .value (cls, u.store.frames.size, vs) r :=
        prepare_eq_value_iff.2 ⟨u, hclass, rfl, hargs⟩
      have hr : r.store.Acyclic := (sound_of_prepare hs henv hprepare).toAcyclic
      exact ⟨_, r, hprepare, (construct_eq_value_iff hr).2
        ⟨rfl, owner, id, k, w, howner, hproc, hclosure, hcall⟩⟩

/-! ## What an instance inherits -/

/-- What a name means from `i` is what it is bound to there. If it is not bound there, it is what it means
from `cls`, or the error that it means nothing there. -/
def State.Inherits (s : State) (i cls : FrameId) : Prop :=
  ∀ name, (∀ v, (s.store.own i).get? name = some v → s.meaning i name = .ok v) ∧
    ((s.store.own i).get? name = none → s.meaning i name = s.meaning cls name)

/-- Growth leaves links as they are. -/
theorem Store.Acyclic.inherits (h : t.store.Acyclic) (hlink : t.store.parent? i = some cls)
    (hgrows : t.store.Grows u.store) : u.Inherits i cls := by
  obtain ⟨fs, hchain⟩ := h.exists_chain (h.parent_lt i cls hlink)
  have hcls : u.store.Chain cls fs := hchain.grows hgrows
  have hi : u.store.Chain i (i :: fs) := (Chain.inside hlink hchain).grows hgrows
  intro name
  have hlookup : u.store.lookup? i name =
      ((u.store.own i).get? name).or (u.store.lookup? cls name) := by
    rw [lookup?, lookup?, hi.chain_eq, hcls.chain_eq, List.findSome?_cons]
    cases (u.store.own i).get? name <;> rfl
  constructor
  · intro v hv
    rw [State.meaning_eq_ok_iff, hlookup, hv, Option.some_or]
  · intro hnone
    apply State.meaning_congr
    rw [hlookup, hnone, Option.none_or]

theorem grows_of_inTurn {ds : List Datum} {vs : List Value}
    (h : (eval fuel).InTurn env s ds vs t) : s.store.Grows t.store := by
  induction h with
  | nil => exact .refl
  | cons hd _ ih => exact (Store.grows_of_ends (congrArg Outcome.result? hd)).trans ih

theorem grows_of_callClosure {callee : String} {k : Closure} {vs : List Value}
    (h : (eval fuel).callClosure callee k vs s = .value v t) : s.store.Grows t.store := by
  let D : Discipline := .bindsIn fun _ => True
  have hkeeps : D.Keeps s.store ((eval fuel).callClosure callee k vs) D.Fit :=
    (D.eval_keeps fuel).callClosure (Discipline.good_bindsIn_all s.store) trivial trivial
      fun _ _ _ _ => trivial
  exact (hkeeps.of_result? (congrArg Outcome.result? h)).1.grows

/-- The frame of the instance is new, and is still linked to the class when the constructor is done. -/
theorem Instantiates.linked (h : Instantiates (eval fuel) env c args s cls i t) :
    s.store.frames.size ≤ i ∧ t.store.parent? i = some cls := by
  cases h with
  | @intro u r t cls owner vs id k w hclass hargs howner hproc hclosure hcall =>
    have hgrows : (u.store.addFrame (.instanceOf cls) (some cls)).2.Grows t.store :=
      (grows_of_inTurn hargs).trans (grows_of_callClosure hcall)
    have hnew : u.store.frames.size < (u.store.addFrame (.instanceOf cls) (some cls)).2.frames.size := by
      simp
    refine ⟨(Store.grows_of_ends (congrArg Outcome.result? hclass)).size_le, ?_⟩
    rw [hgrows.parent? hnew, Store.parent?_addFrame, if_pos rfl]

theorem Session.Later.grows {i : Interpreter} {s t : Session} (h : Later i s t) :
    s.state.store.Grows t.state.store := by
  let D : Discipline := .bindsIn fun _ => True
  have hD : D.Total := ⟨fun _ _ => trivial, fun _ => trivial⟩
  have hs : D.Upheld s := ⟨Discipline.good_bindsIn_all _, fun _ _ _ _ => trivial⟩
  exact (h.upheld hD hs).2.grows

/-- **Instances inherit from their class for good.** Where nothing dangles, what `new` yields is an object
whose frame is new, and which has been made as `Instantiates` says: the arguments were evaluated in turn,
and then the constructor that is first in sight of the class was called once. The frame is linked to that
of the class. So in whatever comes of the store by any writes, and in all later states of a session that
goes on from here, a property of the instance is its own if it has one of that name, and else it is read
as the same property of the class is. -/
theorem Store.Sound.instantiation (h : s.store.Sound) (henv : env < s.store.frames.size)
    (hnew : eval (fuel + 1) (.list (.symbol "new" :: c :: args)) env s = .value v t) :
    ∃ cls i, v = .object i ∧ Instantiates (eval fuel) env c args s cls i t ∧
      s.store.frames.size ≤ i ∧ t.store.parent? i = some cls ∧
      (∀ u : State, t.store.Grows u.store → u.Inherits i cls) ∧
      (∀ interpreter answers later, Session.Later interpreter ⟨t, answers⟩ later →
        later.state.Inherits i cls) ∧
      ∀ (u : State) (p : FrameId) (name : String), u.PropertyIs p name (u.meaning p name) := by
  obtain ⟨cls, i, rfl, hmade⟩ := (eval_new_eq_value_iff h henv).1 hnew
  obtain ⟨hfresh, hlink⟩ := hmade.linked
  have hkeeps := Discipline.sound.eval_keeps (fuel + 1) s.store
    (.list (.symbol "new" :: c :: args)) env h henv trivial
  have ht : t.store.Sound := (hkeeps.of_result? (congrArg Outcome.result? hnew)).1.good
  have hinherits : ∀ u : State, t.store.Grows u.store → u.Inherits i cls :=
    fun u hgrows => ht.toAcyclic.inherits hlink hgrows
  exact ⟨cls, i, rfl, hmade, hfresh, hlink, hinherits,
    fun _ _ later hlater => hinherits later.state hlater.grows, State.propertyIs_meaning⟩

/-- The class inherits its constructor, which the argument replaces before it is called. -/
theorem Session.instantiation_of_derived : ∃ s t, Session.Reached ⟨0⟩ s ∧
    eval 20 (.list [.symbol "new", .symbol "B",
        .list [.symbol "set", .list [.symbol "prop", .symbol "A", .symbol "constructor"],
          .symbol "make"]]) 0 s.state = .value (.object 3) t ∧
    t.store.parent? 3 = some 2 ∧ t.meaning 3 "own" = .ok (.str "new") ∧
    (∀ u : State, t.store.Grows u.store → u.Inherits 3 2) ∧
    ∀ later, Session.Later ⟨0⟩ ⟨t, []⟩ later → later.state.Inherits 3 2 := by
  let code := "(def make (me old) (set (prop me own) \"new\"))
    (class A null (def constructor (me x) (set (prop me own) \"old\"))) (class B A null)"
  let new : Datum := .list [.symbol "new", .symbol "B",
    .list [.symbol "set", .list [.symbol "prop", .symbol "A", .symbol "constructor"], .symbol "make"]]
  let s : State := (Interpreter.run 50 ⟨0⟩ code ⟨Store.fresh, {}⟩).after?.getD {}
  let t : State := (eval 20 new 0 s).after?.getD {}
  obtain ⟨hrun, hsize, hnew, hlink, hown⟩ :
      (Interpreter.run 50 ⟨0⟩ code ⟨Store.fresh, {}⟩).after? = some s ∧
      0 < s.store.frames.size ∧
      eval 20 new 0 s = .value (.object 3) t ∧
      t.store.parent? 3 = some 2 ∧
      t.meaning 3 "own" = .ok (.str "new") := by
    simp only [t, s]
    rw [show code = String.ofList _ from by rfl, Interpreter.run, Datum.readText,
      Token.scan?_ofList]
    decide +kernel
  clear_value t s
  obtain ⟨answers, hreached⟩ := Session.reached_of_run hrun
  obtain ⟨cls, i, hi, -, -, hlink', hgrown, hlater, -⟩ :=
    Store.Sound.instantiation hreached.linked.sound hsize hnew
  cases hi
  rw [hlink] at hlink'
  cases hlink'
  exact ⟨⟨s, answers⟩, t, hreached, hnew, hlink, hown, hgrown, hlater ⟨0⟩ []⟩

end ScopeLisp

import ScopeLisp.Proofs.Hygiene
import ScopeLisp.Proofs.ScopeTree

/-!
# Class chains

An object is made from its class, a class from the class that it extends, and so on, up to a class
that extends nothing (`Store.ClassChain`). The scopes around an object are the frames of its class
chain, and then the scopes around the last class, where that was declared (`ClassChain.chain_eq`).
So a name that is nowhere in the class chain is looked up around the class. `new` looks the
constructor up like this, and so it fails for the want of one only if none is in sight there either
(`Session.Reached.new_without_constructor`); else it runs what it finds.
-/

namespace ScopeLisp

namespace Store

variable {s t : Store} {f o p env : FrameId} {fs : List FrameId} {name : String}

def role? (s : Store) (f : FrameId) : Option Role := (s.frames[f]?).map Frame.role

/-- `fs` are the frame of an object and those of the objects that it is made from, one from the
other. The last one is a class that extends nothing, declared in the frame `env`. -/
inductive ClassChain (s : Store) : FrameId → List FrameId → FrameId → Prop
  | top {f env : FrameId} (hrole : s.role? f = some (.classBody none))
      (henv : s.parent? f = some env) : ClassChain s f [f] env
  | made {f o env : FrameId} {role : Role} {fs : List FrameId} (hrole : s.role? f = some role)
      (horigin : role.origin? = some o) (h : ClassChain s o fs env) : ClassChain s f (f :: fs) env

/-- Names are bound to no objects but classes and instances. Each of these is linked to a frame, and
if it is made from an object, to that. -/
structure Classed (s : Store) : Prop where
  objects : s.ObjectsIn s.IsObject
  linked : ∀ f role, s.role? f = some role → role.IsObject → ∃ p, s.parent? f = some p ∧
    ∀ o, role.origin? = some o → o = p ∧ s.IsObject o

/-! ## Roles -/

@[simp] theorem role?_define (s : Store) (id : FrameId) (name : String) (v : Value) (f : FrameId) :
    (s.define id name v).role? f = s.role? f := by
  unfold role?
  rw [getElem?_define]
  split
  · cases s.frames[f]? <;> rfl
  · rfl

theorem role?_addFrame (s : Store) (role : Role) (parent : Option FrameId) (f : FrameId) :
    (s.addFrame role parent).2.role? f = if f = s.frames.size then some role else s.role? f := by
  unfold role?
  rw [getElem?_addFrame]
  split <;> rfl

theorem isObject_iff : s.IsObject f ↔ ∃ role, s.role? f = some role ∧ role.IsObject := by
  constructor
  · rintro ⟨x, hx, hrole⟩
    exact ⟨x.role, by rw [role?, hx]; rfl, hrole⟩
  · rintro ⟨role, hrole, hobject⟩
    obtain ⟨x, hx, rfl⟩ := Option.map_eq_some_iff.1 hrole
    exact ⟨x, hx, hobject⟩

/-! ## Every object has a class chain -/

namespace Classed

theorem fresh : Store.fresh.Classed where
  objects f name v h := .of_isPlain (isPlain_fresh h)
  linked f role hrole hobject := by
    obtain ⟨x, hx, rfl⟩ := Option.map_eq_some_iff.1 hrole
    have hf : f = 0 := by
      have hlt : f < Store.fresh.frames.size := (Array.getElem?_eq_some_iff.1 hx).1
      rw [size_fresh] at hlt
      exact Nat.lt_one_iff.1 hlt
    obtain ⟨vars, hvars⟩ := getElem?_fresh_zero
    rw [hf, hvars] at hx
    cases hx
    cases hobject

theorem define (h : s.Classed) (f : FrameId) (name : String) {v : Value}
    (hv : v.ObjectIn s.IsObject) : (s.define f name v).Classed := by
  have hgrows : s.Grows (s.define f name v) := .define .refl f name v
  refine ⟨(h.objects.define f name hv).mono fun _ hg => hg.grows hgrows, ?_⟩
  intro g role hrole hobject
  rw [role?_define] at hrole
  obtain ⟨p, hp, horigin⟩ := h.linked g role hrole hobject
  refine ⟨p, by rw [parent?_define, hp], fun o ho => ?_⟩
  exact ⟨(horigin o ho).1, (horigin o ho).2.grows hgrows⟩

theorem addFrame (h : s.Classed) (role : Role)
    (horigin : ∀ o, role.origin? = some o → o = p ∧ s.IsObject o) :
    (s.addFrame role (some p)).2.Classed := by
  have hgrows : s.Grows (s.addFrame role (some p)).2 := .addFrame .refl role (some p)
  refine ⟨(h.objects.addFrame role (some p)).mono fun _ hg => hg.grows hgrows, ?_⟩
  intro g role' hrole hobject
  rw [role?_addFrame] at hrole
  rw [parent?_addFrame]
  split at hrole
  · next hg =>
    cases hrole
    refine ⟨p, if_pos hg, fun o ho => ?_⟩
    exact ⟨(horigin o ho).1, (horigin o ho).2.grows hgrows⟩
  · next hg =>
    obtain ⟨p', hp, horigin'⟩ := h.linked g role' hrole hobject
    refine ⟨p', by rw [if_neg hg, hp], fun o ho => ?_⟩
    exact ⟨(horigin' o ho).1, (horigin' o ho).2.grows hgrows⟩

/-- What an object is made from is older, so this comes to an end, and it can end with nothing but a
class that extends nothing. -/
theorem exists_classChain (h : s.Classed) (hlinked : s.Linked) (f : FrameId) (hf : s.IsObject f) :
    ∃ fs env, s.ClassChain f fs env := by
  induction f using Nat.strongRecOn with
  | ind f ih =>
    obtain ⟨role, hrole, hobject⟩ := isObject_iff.1 hf
    obtain ⟨p, hp, horigin⟩ := h.linked f role hrole hobject
    cases ho : role.origin? with
    | some o =>
      obtain ⟨rfl, hobject'⟩ := horigin o ho
      obtain ⟨fs, env, hchain⟩ := ih o (hlinked.parent_older hp) hobject'
      exact ⟨f :: fs, env, .made hrole ho hchain⟩
    | none =>
      have htop : role = .classBody none := by
        cases role with
        | classBody base => exact congrArg _ ho
        | instanceOf cls => cases ho
        | global | block | call => cases hobject
      exact ⟨[f], p, .top (htop ▸ hrole) hp⟩

end Classed

namespace ClassChain

theorem unique {fs' : List FrameId} {env' : FrameId} (h : s.ClassChain f fs env)
    (h' : s.ClassChain f fs' env') : fs = fs' ∧ env = env' := by
  induction h generalizing fs' with
  | top hrole henv =>
    cases h' with
    | top _ henv' =>
      rw [henv] at henv'
      exact ⟨rfl, Option.some.inj henv'⟩
    | made hrole' horigin' _ =>
      rw [hrole] at hrole'
      cases hrole'
      cases horigin'
  | made hrole horigin _ ih =>
    cases h' with
    | top hrole' _ =>
      rw [hrole] at hrole'
      cases hrole'
      cases horigin
    | made hrole' horigin' h' =>
      rw [hrole] at hrole'
      cases hrole'
      rw [horigin] at horigin'
      cases horigin'
      obtain ⟨rfl, henv⟩ := ih h'
      exact ⟨rfl, henv⟩

/-- The scopes around an object are its class chain and the scopes around the class at its end. -/
theorem chain_eq (hs : s.Classed) (hlinked : s.Linked) (h : s.ClassChain f fs env) :
    s.chain f = fs ++ s.chain env := by
  induction h with
  | top _ henv => exact hlinked.chain_eq_cons henv
  | made hrole horigin _ ih =>
    obtain ⟨p, hp, hlink⟩ := hs.linked _ _ hrole (Role.isObject_of_origin? horigin)
    obtain ⟨rfl, -⟩ := hlink _ horigin
    rw [hlinked.chain_eq_cons hp, ih, List.cons_append]

/-- A name that the class chain does not own is looked up around it. -/
theorem lookup?_eq (hs : s.Classed) (hlinked : s.Linked) (h : s.ClassChain f fs env)
    (hname : ∀ g ∈ fs, (s.own g).owns name = false) : s.lookup? f name = s.lookup? env name := by
  have hnone : (fs.findSome? fun g => (s.own g).get? name) = none := by
    refine List.findSome?_eq_none_iff.2 fun g hg => ?_
    exact Option.not_isSome_iff_eq_none.1 (Bool.eq_false_iff.1 (hname g hg))
  rw [lookup?, h.chain_eq hs hlinked, List.findSome?_append, hnone, Option.none_or, ← lookup?]

end ClassChain

end Store

/-- Classes and instances are linked to what they are made from. -/
def Discipline.classes : Discipline where
  __ := Discipline.objects
  Good := Store.Classed
  fit_lookup hs := Discipline.objects.fit_lookup hs.objects
  home_object _ _ := trivial
  closure _ _ _ := ⟨trivial, trivial⟩
  define name hs _ hv := ⟨hs.define _ name hv, trivial⟩
  assign hs _ _ hv := ⟨hs.define _ _ hv, trivial⟩
  addFrame role hs hp horigin :=
    have horigin' := fun o ho => ⟨(horigin o ho).1, (horigin o ho).2 o rfl⟩
    ⟨hs.addFrame role horigin', (Discipline.objects.addFrame role hs.objects hp horigin).2⟩
  addClosure hs _ _ _ := ⟨⟨hs.objects, hs.linked⟩, trivial, nofun⟩

theorem Discipline.total_classes : Discipline.classes.Total :=
  ⟨fun _ _ => trivial, fun _ => trivial⟩

/-! ## Making instances -/

theorem eval_new (fuel : Nat) (env : FrameId) (cls : Datum) (args : List Datum) :
    eval (fuel + 1) (.list (.symbol "new" :: cls :: args)) env =
      (eval fuel).prepare env cls args >>= fun r => (eval fuel).construct r.1 r.2.1 r.2.2 :=
  evalForm_instantiate fuel (eval fuel) env cls args

variable {t : State} {fuel : Nat} {cls f : FrameId} {vs : List Value}

/-- A call that has begun leaves a frame behind, so one that leaves the state as it was has not. -/
theorem eq_wrongCount_of_callClosure {callee : String} {c : Closure} {e : RunError}
    (h : (eval fuel).callClosure callee c vs t = .error e t) :
    e = .wrongCount callee c.params.length vs.length := by
  unfold Evaluator.callClosure at h
  split at h
  · let D : Discipline := .bindsIn fun _ => True
    let u : Store := (t.store.addFrame .call (some c.scope)).2
    let x : Action RunError Value := Action.defineAll t.store.frames.size (c.params.zip vs) >>=
      fun _ => (eval fuel).body t.store.frames.size c.body
    have hrun : x ⟨u, t.console⟩ = .error e t := h
    have hkeeps : D.Keeps u x D.Fit := (D.eval_keeps fuel).enter (Discipline.good_bindsIn_all u)
      trivial (fun _ _ _ _ => trivial) trivial
    have hleads := hkeeps t.console
    rw [hrun] at hleads
    have hsize : u.frames.size ≤ t.store.frames.size := Store.Grows.size_le hleads.grows
    rw [Store.size_addFrame] at hsize
    exact absurd hsize (Nat.not_succ_le_self _)
  · cases h
    rfl

theorem eq_wrongCount_of_callProc {callee : String} {id : ClosureId} {e : RunError}
    (hid : t.store.Holds (.proc id)) (h : (eval fuel).callProc callee id vs t = .error e t) :
    ∃ expected got, e = .wrongCount callee expected got := by
  unfold Evaluator.callProc at h
  rw [Action.bind_apply] at h
  unfold Action.closure? at h
  rw [Array.getElem?_eq_getElem hid] at h
  exact ⟨_, _, eq_wrongCount_of_callClosure h⟩

theorem construct_eq_notDefined_iff (ht : t.store.Linked) :
    (eval fuel).construct cls f vs t = .error (.notDefined "constructor") t ↔
      t.store.lookup? cls "constructor" = none := by
  unfold Evaluator.construct
  rw [Action.bind_apply]
  unfold Action.lookup
  cases hv : t.store.lookup? cls "constructor" with
  | none => simp
  | some v =>
    refine iff_of_false (fun h => ?_) (Option.some_ne_none v)
    cases v with
    | proc id =>
      obtain ⟨g, -, hg⟩ := Store.mem_chain_of_lookup? hv
      have hid : t.store.Holds (.proc id) := ht.value g _ _ hg
      have hcall : ((eval fuel).callProc "constructor" id (Value.object f :: vs) >>= fun _ =>
        (pure (.object f) : Action RunError Value)) t = .error (.notDefined "constructor") t := h
      rw [Action.bind_apply] at hcall
      split at hcall
      · cases hcall
      · next e u herror =>
        cases hcall
        obtain ⟨expected, got, he⟩ := eq_wrongCount_of_callProc hid herror
        cases he
      · cases hcall
    | _ => cases h

/-- The constructor is all that `new` takes from the scopes of the class. -/
theorem construct_congr {cls' : FrameId}
    (h : t.store.lookup? cls "constructor" = t.store.lookup? cls' "constructor") :
    (eval fuel).construct cls f vs t = (eval fuel).construct cls' f vs t := by
  unfold Evaluator.construct
  rw [Action.bind_apply, Action.bind_apply, Action.lookup, Action.lookup, h]

/-- What `new` has prepared in a session, has a class chain. -/
theorem Session.Reached.exists_classChain {i : Interpreter} {s : Session} (h : Reached i s)
    {env : FrameId} (henv : env < s.state.store.frames.size) {c : Datum} {args : List Datum}
    (hprepare : (eval fuel).prepare env c args s.state = .value (cls, f, vs) t) :
    t.store.Linked ∧ t.store.Classed ∧ ∃ fs around, t.store.ClassChain cls fs around := by
  obtain ⟨hupheld, -⟩ := h.upheld Discipline.total_classes Store.Classed.fresh
  have hlinked := (Discipline.linked.eval_keeps fuel).prepare h.linked henv
    (Discipline.total_linked.code c) (fun d (_ : d ∈ args) => Discipline.total_linked.code d)
    s.state.console
  have hclassed := (Discipline.classes.eval_keeps fuel).prepare hupheld.good
    (Discipline.total_classes.home hupheld.good henv)
    (Discipline.total_classes.code c) (fun d (_ : d ∈ args) => Discipline.total_classes.code d)
    s.state.console
  rw [hprepare] at hlinked hclassed
  have hobject : t.store.IsObject cls := hclassed.2.1 cls rfl
  exact ⟨hlinked.1.good, hclassed.1.good,
    hclassed.1.good.exists_classChain hlinked.1.good cls hobject⟩

/-- **A constructor is looked for in the class chain and then around it.** In a session `new` has
evaluated its class and its arguments, and now no frame of the class chain owns a constructor. Then
what happens is what would happen if the constructor were looked up where the last class of the
chain was declared. For the want of a constructor it fails, with nothing more done, if and only if
none is in sight there either. -/
theorem Session.Reached.new_without_constructor {i : Interpreter} {s : Session} (h : Reached i s)
    {env : FrameId} (henv : env < s.state.store.frames.size) {c : Datum} {args : List Datum}
    (hprepare : (eval fuel).prepare env c args s.state = .value (cls, f, vs) t) :
    ∃ fs around, t.store.ClassChain cls fs around ∧
      ((∀ g ∈ fs, (t.store.own g).owns "constructor" = false) →
        eval (fuel + 1) (.list (.symbol "new" :: c :: args)) env s.state =
            (eval fuel).construct around f vs t ∧
          (eval (fuel + 1) (.list (.symbol "new" :: c :: args)) env s.state =
              .error (.notDefined "constructor") t ↔
            t.store.lookup? around "constructor" = none)) := by
  obtain ⟨hlinked, hclassed, fs, around, hchain⟩ := h.exists_classChain henv hprepare
  refine ⟨fs, around, hchain, fun hown => ?_⟩
  have hnew : eval (fuel + 1) (.list (.symbol "new" :: c :: args)) env s.state =
      (eval fuel).construct around f vs t := by
    rw [eval_new, Action.bind_apply, hprepare]
    exact construct_congr (hchain.lookup?_eq hclassed hlinked hown)
  refine ⟨hnew, ?_⟩
  rw [hnew]
  exact construct_eq_notDefined_iff hlinked

/-- A class that extends another, where no constructor is in sight. -/
theorem Session.new_without_constructor_of_derived : ∃ s t, Session.Reached ⟨0⟩ s ∧
    (eval 9).prepare 0 (.symbol "B") [] s.state = .value (2, 3, []) t ∧
    t.store.ClassChain 2 [2, 1] 0 ∧
    eval 10 (.list [.symbol "new", .symbol "B"]) 0 s.state =
      .error (.notDefined "constructor") t := by
  let code := "(class A null (begin)) (class B A (def constructors (this) this))"
  let s : State := (Interpreter.run 50 ⟨0⟩ code ⟨Store.fresh, {}⟩).after?.getD {}
  let t : State := ⟨(s.store.addFrame (.instanceOf 2) (some 2)).2, s.console⟩
  obtain ⟨hrun, hprepare, hsize, hrole, hrole', hparent, hown, hnone⟩ :
      (Interpreter.run 50 ⟨0⟩ code ⟨Store.fresh, {}⟩).after? = some s ∧
      (eval 9).prepare 0 (.symbol "B") [] s = .value (2, 3, []) t ∧
      0 < s.store.frames.size ∧
      t.store.role? 2 = some (.classBody (some 1)) ∧
      t.store.role? 1 = some (.classBody none) ∧
      t.store.parent? 1 = some 0 ∧
      (∀ g ∈ [2, 1], (t.store.own g).owns "constructor" = false) ∧
      t.store.lookup? 0 "constructor" = none := by
    simp only [t, s]
    rw [show code = String.ofList _ from by rfl, Interpreter.run, Datum.readText,
      Token.scan?_ofList]
    decide +kernel
  have hchain : t.store.ClassChain 2 [2, 1] 0 := .made hrole rfl (.top hrole' hparent)
  obtain ⟨answers, hreached⟩ := Session.reached_of_run hrun
  obtain ⟨fs, around, hchain', hnew⟩ := hreached.new_without_constructor hsize hprepare
  obtain ⟨rfl, rfl⟩ := hchain.unique hchain'
  exact ⟨⟨s, answers⟩, t, hreached, hprepare, hchain, (hnew hown).2.2 hnone⟩

/-- Not every class without a constructor fails for the want of one: here a procedure of that name
is bound where the class is declared, and `new` calls it. -/
theorem Session.new_with_constructor_around :
    ¬ ∀ (i : Interpreter) (s : Session) (env : FrameId) (fuel : Nat) (c : Datum) (args : List Datum)
      (cls f : FrameId) (vs : List Value) (t : State) (fs : List FrameId) (around : FrameId),
      Session.Reached i s → env < s.state.store.frames.size →
      (eval fuel).prepare env c args s.state = .value (cls, f, vs) t →
      t.store.ClassChain cls fs around → (∀ g ∈ fs, (t.store.own g).owns "constructor" = false) →
      eval (fuel + 1) (.list (.symbol "new" :: c :: args)) env s.state =
        .error (.notDefined "constructor") t := by
  intro h
  let code := "(def constructor (this) (print \"ran\")) (class A null (begin))"
  let s : State := (Interpreter.run 50 ⟨0⟩ code ⟨Store.fresh, {}⟩).after?.getD {}
  let t : State := ⟨(s.store.addFrame (.instanceOf 1) (some 1)).2, s.console⟩
  let u : State := ⟨((t.store.addFrame .call (some 0)).2.define 3 "this" (.object 2)),
    s.console.print "ran"⟩
  obtain ⟨hrun, hprepare, hsize, hrole, hparent, hown, hnew⟩ :
      (Interpreter.run 50 ⟨0⟩ code ⟨Store.fresh, {}⟩).after? = some s ∧
      (eval 9).prepare 0 (.symbol "A") [] s = .value (1, 2, []) t ∧
      0 < s.store.frames.size ∧
      t.store.role? 1 = some (.classBody none) ∧
      t.store.parent? 1 = some 0 ∧
      (∀ g ∈ [1], (t.store.own g).owns "constructor" = false) ∧
      eval 10 (.list [.symbol "new", .symbol "A"]) 0 s = .value (.object 2) u := by
    simp only [u, t, s]
    rw [show code = String.ofList _ from by rfl, Interpreter.run, Datum.readText,
      Token.scan?_ofList]
    decide +kernel
  obtain ⟨answers, hreached⟩ := Session.reached_of_run hrun
  have hfails := h ⟨0⟩ ⟨s, answers⟩ 0 9 (.symbol "A") [] 1 2 [] t [1] 0 hreached hsize hprepare
    (.top hrole hparent) hown
  rw [hnew] at hfails
  cases hfails

end ScopeLisp

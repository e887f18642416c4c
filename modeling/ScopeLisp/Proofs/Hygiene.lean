import ScopeLisp.Proofs.Session

/-!
# Hygiene of scopes

Names come to be in a frame only when they are declared in it, passed to it, or set as properties of
it. For the last of these the frame has to be had as an object, and in every session objects are
classes and instances (`Discipline.objects`). Evaluation in a frame thus adds names to that frame, to
objects and to frames that it makes itself, and to no others; a `begin` and a call bind in frames of
their own, and so they add names to no block, no call and no global frame that was there before. The
law for this is stated for a fixed set of frames that may be bound in (`Discipline.bindsIn`).
-/

namespace ScopeLisp

/-- If the value is an object, its frame has `P`. -/
def Value.ObjectIn (P : FrameId → Prop) (v : Value) : Prop := ∀ f, v = .object f → P f

theorem Value.ObjectIn.of_isPlain {P : FrameId → Prop} {v : Value} (h : v.IsPlain) :
    v.ObjectIn P := by
  rintro f rfl
  exact absurd rfl h.2

theorem Value.ObjectIn.mono {P Q : FrameId → Prop} {v : Value} (h : v.ObjectIn P)
    (hPQ : ∀ f, P f → Q f) : v.ObjectIn Q := fun f hf => hPQ f (h f hf)

namespace Store

variable {s t u : Store} {f g : FrameId} {v : Value} {P Q : FrameId → Prop}

/-- All objects that names are bound to have `P`. -/
def ObjectsIn (s : Store) (P : FrameId → Prop) : Prop :=
  ∀ f name v, (s.own f).get? name = some v → v.ObjectIn P

def IsObject (s : Store) (f : FrameId) : Prop := ∃ x, s.frames[f]? = some x ∧ x.role.IsObject

/-- The frame binds the same names in both stores, maybe to other values. -/
def SameNames (s t : Store) (f : FrameId) : Prop := ∀ name, name ∈ t.names f ↔ name ∈ s.names f

namespace ObjectsIn

theorem mono (h : s.ObjectsIn P) (hPQ : ∀ f, P f → Q f) : s.ObjectsIn Q :=
  fun f name v hv => (h f name v hv).mono hPQ

theorem lookup? (h : s.ObjectsIn P) {name : String} (hv : s.lookup? f name = some v) :
    v.ObjectIn P := by
  obtain ⟨g, -, hg⟩ := mem_chain_of_lookup? hv
  exact h g name v hg

theorem define (h : s.ObjectsIn P) (f : FrameId) (name : String) (hv : v.ObjectIn P) :
    (s.define f name v).ObjectsIn P := by
  intro g other w hw
  rcases get?_of_define hw with ⟨-, rfl⟩ | hw
  · exact hv
  · exact h g other w hw

theorem addFrame (h : s.ObjectsIn P) (role : Role) (parent : Option FrameId) :
    (s.addFrame role parent).2.ObjectsIn P := by
  intro f name v hv
  rw [own_addFrame] at hv
  exact h f name v hv

end ObjectsIn

theorem IsObject.grows (h : s.IsObject f) (hg : s.Grows t) : t.IsObject f := by
  obtain ⟨x, hx, hrole⟩ := h
  obtain ⟨vars, hvars⟩ := hg.frame hx
  exact ⟨_, hvars, hrole⟩

namespace SameNames

theorem refl : SameNames s s f := fun _ => .rfl

theorem trans (h₁ : SameNames s t f) (h₂ : SameNames t u f) : SameNames s u f :=
  fun name => (h₂ name).trans (h₁ name)

theorem of_own_eq (h : t.own f = s.own f) : SameNames s t f := by
  intro name
  rw [names, names, h]

theorem define_of_ne (h : g ≠ f) (name : String) (v : Value) :
    SameNames s (s.define f name v) g := by
  refine of_own_eq ?_
  by_cases hf : f < s.frames.size
  · rw [own_define s hf, if_neg h]
  · exact own_define_of_le s (Nat.not_lt.1 hf) name v g

/-- Assigning binds no new name. -/
theorem define_of_owns {name : String} (h : (s.own f).owns name = true) (v : Value) :
    SameNames s (s.define f name v) g := by
  obtain ⟨w, hw⟩ := owns_iff.1 h
  intro other
  rw [names, names, Bindings.mem_names, Bindings.mem_names, own_define s (lt_of_get? hw)]
  split
  · next hg =>
    subst hg
    rw [Bindings.owns_insert]
    by_cases ho : other = name
    · simp [ho, h]
    · simp [ho]
  · exact .rfl

end SameNames

end Store

/-- Objects are classes and instances. -/
def Discipline.objects : Discipline where
  Good s := s.ObjectsIn s.IsObject
  Step _ _ := True
  Scope _ _ := True
  Home _ _ := True
  Fit s v := v.ObjectIn s.IsObject
  Code _ := True
  step_refl _ := trivial
  step_trans _ _ := trivial
  scope_mono _ _ _ := trivial
  home_mono _ _ _ := trivial
  fit_mono hg _ hv := hv.mono fun _ hf => hf.grows hg
  scope_of_home _ := trivial
  parts _ _ _ _ := trivial
  fit_plain := .of_isPlain
  fit_lookup hs _ hv := hs.lookup? hv
  home_object _ _ := trivial
  closure _ _ _ := ⟨trivial, trivial⟩
  define {s f v} name hs _ hv := by
    have hgrows : s.Grows (s.define f name v) := .define .refl f name v
    exact ⟨(hs.define f name hv).mono fun _ hg => hg.grows hgrows, trivial⟩
  assign {s env f name v} hs _ _ hv := by
    have hgrows : s.Grows (s.define f name v) := .define .refl f name v
    exact ⟨(hs.define f name hv).mono fun _ hg => hg.grows hgrows, trivial⟩
  addFrame {s p} role hs _ _ := by
    have hgrows : s.Grows (s.addFrame role (some p)).2 := .addFrame .refl role (some p)
    refine ⟨(hs.addFrame role (some p)).mono fun _ hg => hg.grows hgrows, trivial, trivial, ?_⟩
    rintro hrole f hf
    cases hf
    exact ⟨⟨role, some p, {}⟩, by rw [Store.getElem?_addFrame, if_pos rfl], hrole⟩
  addClosure hs _ _ _ := ⟨hs, trivial, nofun⟩

theorem Discipline.total_objects : Discipline.objects.Total := ⟨fun _ _ => trivial, fun _ => trivial⟩

/-- New names are bound only in frames with `W`. -/
def Discipline.bindsIn (W : FrameId → Prop) : Discipline where
  Good s := s.ObjectsIn W ∧ s.NewIn W
  Step s t := ∀ f, ¬ W f → s.SameNames t f
  Scope _ _ := True
  Home _ := W
  Fit _ v := v.ObjectIn W
  Code _ := True
  step_refl _ _ _ := .refl
  step_trans h₁ h₂ f hf := (h₁ f hf).trans (h₂ f hf)
  scope_mono _ _ _ := trivial
  home_mono _ _ hf := hf
  fit_mono _ _ hv := hv
  scope_of_home _ := trivial
  parts _ _ _ _ := trivial
  fit_plain := .of_isPlain
  fit_lookup hs _ hv := hs.1.lookup? hv
  home_object _ hf := hf _ rfl
  closure _ _ _ := ⟨trivial, trivial⟩
  define {s f v} name hs hf hv := by
    have hgrows : s.Grows (s.define f name v) := .define .refl f name v
    refine ⟨⟨hs.1.define f name hv, hs.2.grows hgrows⟩, fun g hg => ?_⟩
    have hne : g ≠ f := fun h => hg (h ▸ hf)
    exact .define_of_ne hne name v
  assign {s env f name v} hs _ hf hv := by
    have hgrows : s.Grows (s.define f name v) := .define .refl f name v
    refine ⟨⟨hs.1.define f name hv, hs.2.grows hgrows⟩, fun g _ => ?_⟩
    exact .define_of_owns (Store.mem_chain_of_owner? hf).2 v
  addFrame {s p} role hs _ _ := by
    have hnew : W s.frames.size := hs.2 _ (Nat.le_refl _)
    have hgrows : s.Grows (s.addFrame role (some p)).2 := .addFrame .refl role (some p)
    refine ⟨⟨hs.1.addFrame role (some p), hs.2.grows hgrows⟩, fun g _ => ?_, hnew, ?_⟩
    · exact .of_own_eq (Store.own_addFrame s role (some p) g)
    · rintro _ f hf
      cases hf
      exact hnew
  addClosure hs _ _ _ := ⟨hs, fun _ _ => .refl, nofun⟩

/-- It is no law at all if all frames may be bound in. -/
theorem Discipline.good_bindsIn_all (s : Store) : (Discipline.bindsIn fun _ => True).Good s :=
  ⟨fun _ _ _ _ _ _ => trivial, fun _ _ => trivial⟩

/-! ## Sessions -/

/-- All existing frames without `P` have kept their names. -/
def Store.NamesKept (s t : Store) (P : FrameId → Prop) : Prop :=
  ∀ f < s.frames.size, ¬ P f → s.SameNames t f

/-- May be bound in: has `P`, or does not exist yet. -/
def Store.Bindable (s : Store) (P : FrameId → Prop) (f : FrameId) : Prop :=
  P f ∨ s.frames.size ≤ f

theorem Store.good_bindable {s : Store} {P : FrameId → Prop} (hs : s.ObjectsIn P) :
    (Discipline.bindsIn (s.Bindable P)).Good s :=
  ⟨hs.mono fun _ hf => .inl hf, fun _ hf => .inr hf⟩

/-- A run that binds only in bindable frames keeps the names of the others. -/
theorem Store.namesKept_of_keeps {ε : Type} {s : Store} {P : FrameId → Prop} {x : Action ε Value}
    {c : Console} {r : Except ε Value} {t : State}
    (hx : (Discipline.bindsIn (s.Bindable P)).Keeps s x (Discipline.bindsIn (s.Bindable P)).Fit)
    (hrun : (x ⟨s, c⟩).result? = some (r, t)) : s.NamesKept t.store P := by
  obtain ⟨hleads, -⟩ := hx.of_result? hrun
  have hstep : ∀ f, ¬ s.Bindable P f → s.SameNames t.store f := hleads.step
  intro f hf hP
  refine hstep f ?_
  rintro (h | h)
  · exact hP h
  · exact absurd hf (Nat.not_lt.2 h)

/-- In this state objects are classes and instances, and evaluation spares the names of all frames but
these and its own. -/
structure State.Hygienic (s : State) : Prop where
  objects : s.store.ObjectsIn s.store.IsObject
  eval : ∀ (fuel : Nat) (d : Datum) (env : FrameId) (r : Except RunError Value) (t : State),
    (eval fuel d env s).result? = some (r, t) →
    s.store.NamesKept t.store fun f => f = env ∨ s.store.IsObject f
  block : ∀ (fuel : Nat) (ds : List Datum) (env : FrameId) (r : Except RunError Value) (t : State),
    (ScopeLisp.eval fuel (.list (.symbol "begin" :: ds)) env s).result? = some (r, t) →
    s.store.NamesKept t.store s.store.IsObject
  call : ∀ (fuel : Nat) (callee : String) (c : Closure) (args : List Value)
    (r : Except RunError Value) (t : State), (∀ v ∈ args, v.ObjectIn s.store.IsObject) →
    ((ScopeLisp.eval fuel).callClosure callee c args s).result? = some (r, t) →
    s.store.NamesKept t.store s.store.IsObject

theorem State.hygienic_of_objects {s : State} (hs : s.store.ObjectsIn s.store.IsObject) :
    s.Hygienic where
  objects := hs
  eval fuel d env r t hrun := by
    have hgood := Store.good_bindable (hs.mono fun f hf => Or.inr (a := f = env) hf)
    refine Store.namesKept_of_keeps ?_ hrun
    exact Discipline.eval_keeps _ fuel _ d env hgood (.inl (.inl rfl)) trivial
  block fuel ds env r t hrun := by
    cases fuel with
    | zero => cases hrun
    | succ fuel =>
      have hblock : Discipline.Keeps _ s.store (evalForm fuel (ScopeLisp.eval fuel) env (.block ds))
          _ := (Discipline.eval_keeps _ fuel).newBlock (Store.good_bindable hs) trivial
        fun _ _ => trivial
      exact Store.namesKept_of_keeps hblock hrun
  call fuel callee c args r t hargs hrun := by
    refine Store.namesKept_of_keeps ?_ hrun
    refine (Discipline.eval_keeps _ fuel).callClosure (Store.good_bindable hs) trivial trivial ?_
    exact fun v hv => (hargs v hv).mono fun _ hf => .inl hf

/-- **Scopes are hygienic.** In every session objects are classes and instances, those that the host
was given too, and never the global frame. So evaluation in a frame adds names to no other frames that
were there before but classes and instances, and a `begin` and a call add none to the frame itself. -/
theorem Session.Reached.hygiene {i : Interpreter} {t : Session} (h : Session.Reached i t) :
    t.state.Hygienic ∧ (∀ v ∈ t.answers, v.ObjectIn t.state.store.IsObject) ∧
      ¬ t.state.store.IsObject i.globalFrame := by
  have hfresh : Store.fresh.ObjectsIn Store.fresh.IsObject :=
    fun f name v hv => .of_isPlain (Store.isPlain_fresh hv)
  obtain ⟨hupheld, hleads⟩ := h.upheld Discipline.total_objects hfresh
  refine ⟨State.hygienic_of_objects hupheld.good, hupheld.fit, ?_⟩
  rw [h.globalFrame_eq]
  rintro ⟨x, hx, hrole⟩
  obtain ⟨vars, hvars⟩ := Store.getElem?_fresh_zero
  obtain ⟨vars', hvars'⟩ := hleads.grows.frame hvars
  rw [hvars'] at hx
  cases hx
  exact hrole

/-- A class, an instance and two calls leave nothing in the global frame but what was declared there. -/
theorem Session.hygiene_after_calls : ∃ t, Session.Reached ⟨0⟩ t ∧
    t.state.store.frames.map Frame.role =
      #[.global, .classBody none, .instanceOf 1, .call, .call] ∧
    t.state.Hygienic ∧ (∀ v ∈ t.answers, v.ObjectIn t.state.store.IsObject) ∧
      ¬ t.state.store.IsObject (Interpreter.mk 0).globalFrame := by
  let code := "(class A null (def constructor (me) (set (prop me self) me))) (new A)
    (def f () (begin (var inner 1) inner)) (f) inner"
  have hroles : (Interpreter.run 50 ⟨0⟩ code ⟨Store.fresh, {}⟩).after?.map
      (fun s => s.store.frames.map Frame.role) =
        some #[.global, .classBody none, .instanceOf 1, .call, .call] := by
    rw [show code = String.ofList _ from by rfl, Interpreter.run, Datum.readText,
      Token.scan?_ofList]
    decide +kernel
  obtain ⟨s, hrun, hs⟩ := Option.map_eq_some_iff.1 hroles
  obtain ⟨answers, hreached⟩ := Session.reached_of_run hrun
  exact ⟨⟨s, answers⟩, hreached, hs, Session.Reached.hygiene hreached⟩

end ScopeLisp

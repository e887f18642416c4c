import ScopeLisp.Proofs.ScopeLaws

/-!
# Writes of properties

A form `(set (prop object name) value)` writes to the frame of the object itself. Frames of objects are
never global frames, so a form of this kind whose parts are symbols of the global frame can be evaluated
there again and again, in any order: the symbols keep their values, and each form binds one name in one
frame (`PropertyWrite.inTurn_forms`). What a property is afterwards follows from the last writes alone: the
first frame of the chain that owns the name now has the last value written to it, or the one that it had
all along (`Session.Reached.property_writes`).
-/

namespace ScopeLisp

/-- The data are evaluated from left to right, each of them once, and yield the values. -/
inductive Evaluator.InTurn (eval : Evaluator) (env : FrameId) :
    State → List Datum → List Value → State → Prop
  | nil {s : State} : InTurn eval env s [] [] s
  | cons {s t u : State} {d : Datum} {ds : List Datum} {v : Value} {vs : List Value}
      (hd : eval d env s = .value v t) (hrest : InTurn eval env t ds vs u) :
      InTurn eval env s (d :: ds) (v :: vs) u

theorem Evaluator.values_eq_value_iff {eval : Evaluator} {env : FrameId} {s t : State}
    {ds : List Datum} {vs : List Value} :
    eval.values env ds s = .value vs t ↔ eval.InTurn env s ds vs t := by
  induction ds generalizing s vs with
  | nil =>
    constructor
    · intro h
      cases h
      exact .nil
    · intro h
      cases h
      rfl
  | cons d ds ih =>
    rw [Evaluator.values, Action.bind_eq_value_iff]
    constructor
    · rintro ⟨v, u, hd, h⟩
      obtain ⟨ws, w, hrest, h⟩ := Action.bind_eq_value_iff.1 h
      cases h
      exact .cons hd (ih.1 hrest)
    · intro h
      cases h with
      | cons hd hrest => exact ⟨_, _, hd, Action.bind_eq_value_iff.2 ⟨_, _, ih.2 hrest, rfl⟩⟩

/-- From an outermost frame only its own names are in sight. -/
theorem Store.Chain.lookup?_outermost {s : Store} {f : FrameId} (h : s.Chain f [f]) {name : String} :
    s.lookup? f name = (s.own f).get? name := by
  rw [lookup?, h.chain_eq, List.findSome?_cons]
  cases (s.own f).get? name <;> rfl

/-- Reading the property is what `r` says, whatever form the object comes from, and changes nothing. -/
def State.PropertyIs (s : State) (p : FrameId) (name : String) (r : Except RunError Value) : Prop :=
  ∀ (fuel : Nat) (d : Datum) (env : FrameId) (t : State), eval fuel d env t = .value (.object p) s →
    (eval (fuel + 1) (.list [.symbol "prop", d, .symbol name]) env t).result? = some (r, s)

/-- Properties are what their names mean from the frame of the object. -/
theorem State.propertyIs_meaning (s : State) (p : FrameId) (name : String) :
    s.PropertyIs p name (s.meaning p name) := by
  intro fuel d env t hd
  have hform : Form.ofDatum (.list [.symbol "prop", d, .symbol name]) =
      .ok (.property d (.symbol name)) := rfl
  rw [eval_succ, evalDatum, hform]
  simp only [evalForm, Action.bind_apply, hd, Value.asObject, Form.nameIn, Action.ofExcept,
    Action.pure_apply, Action.lookup_eq_meaning]
  cases s.meaning p name <;> rfl

/-- A form `(set (prop object name) value)`, whose object is a symbol. -/
structure PropertyWrite where
  object : String
  name : String
  value : Datum

namespace PropertyWrite

def form (w : PropertyWrite) : Datum :=
  .list [.symbol "set", .list [.symbol "prop", .symbol w.object, .symbol w.name], w.value]

/-- The frame that is written, if the symbol is bound to an object. -/
def target? (globals : Bindings) (w : PropertyWrite) : Option FrameId :=
  match globals.get? w.object with
  | some (.object f) => some f
  | _ => none

/-- The value that is written, if it is a literal or a symbol that is bound. -/
def value? (globals : Bindings) (w : PropertyWrite) : Option Value :=
  match w.value with
  | .number x => some (.number x)
  | .str text => some (.str text)
  | .symbol name => globals.get? name
  | .list _ => none

/-- All symbols are bound, that of the object to an object. -/
structure Bound (globals : Bindings) (w : PropertyWrite) : Prop where
  target : ∃ f, w.target? globals = some f
  value : ∃ v, w.value? globals = some v

/-- The value that was written last to the name in the frame. -/
def last? (globals : Bindings) (f : FrameId) (name : String) : List PropertyWrite → Option Value
  | [] => none
  | w :: ws =>
    (last? globals f name ws).or
      (if w.target? globals = some f ∧ w.name = name then w.value? globals else none)

/-- From `s` to `t` the writes have been made, and nothing else. -/
structure Made (globals : Bindings) (ws : List PropertyWrite) (s t : Store) : Prop where
  get? : ∀ f name, (t.own f).get? name = (last? globals f name ws).or ((s.own f).get? name)
  frame : ∀ f, (∀ w ∈ ws, w.target? globals ≠ some f) → t.frames[f]? = s.frames[f]?
  size : t.frames.size = s.frames.size
  closures : t.closures = s.closures
  grows : s.Grows t

variable {globals : Bindings} {w : PropertyWrite} {ws : List PropertyWrite} {s t u : Store}
  {f g o p : FrameId} {name : String} {v : Value}

theorem get?_of_target? (h : w.target? globals = some f) :
    globals.get? w.object = some (.object f) := by
  unfold target? at h
  split at h
  · next heq =>
    cases h
    exact heq
  · cases h

/-! ## One write -/

theorem eval_value {s : State} (hroot : s.store.Chain g [g]) (hv : w.value? (s.store.own g) = some v)
    (fuel : Nat) : eval (fuel + 1) w.value g s = .value v s := by
  unfold value? at hv
  split at hv
  · next x hx =>
    cases hv
    rw [hx]
    rfl
  · next text htext =>
    cases hv
    rw [htext]
    rfl
  · next name hname =>
    rw [hname]
    show Action.lookup g name s = _
    rw [Action.lookup, hroot.lookup?_outermost, hv]
  · cases hv

/-- A write binds the name in the frame of the object. -/
theorem eval_form {s : State} (hroot : s.store.Chain g [g])
    (hf : w.target? (s.store.own g) = some f) (hv : w.value? (s.store.own g) = some v) (fuel : Nat) :
    eval (fuel + 2) w.form g s = .value v ⟨s.store.define f w.name v, s.console⟩ := by
  have hform : Form.ofDatum w.form =
      .ok (.setProperty (.symbol w.object) (.symbol w.name) w.value) := rfl
  have hobject : eval (fuel + 1) (.symbol w.object) g s = .value (.object f) s := by
    show Action.lookup g w.object s = _
    rw [Action.lookup, hroot.lookup?_outermost, get?_of_target? hf]
  rw [eval_succ, evalDatum, hform]
  simp only [evalForm, Action.bind_apply, hobject, Value.asObject, Form.nameIn, Action.ofExcept,
    Action.pure_apply, eval_value hroot hv fuel]
  rfl

theorem Made.refl : Made globals [] s s := ⟨fun _ _ => rfl, fun _ _ => rfl, rfl, rfl, .refl⟩

theorem Made.cons (hf : w.target? globals = some f) (hv : w.value? globals = some v)
    (hlt : f < s.frames.size) (h : Made globals ws (s.define f w.name v) t) :
    Made globals (w :: ws) s t where
  get? g name := by
    have hwritten : ((s.define f w.name v).own g).get? name =
        (if w.target? globals = some g ∧ w.name = name then w.value? globals else none).or
          ((s.own g).get? name) := by
      rw [Store.own_define s hlt, hf, hv]
      by_cases hg : g = f
      · subst hg
        by_cases hname : name = w.name
        · simp [hname]
        · simp [hname, Ne.symm hname]
      · simp [hg, Ne.symm hg]
    rw [h.get?, hwritten, last?, Option.or_assoc]
  frame g hg := by
    have hne : g ≠ f := by
      rintro rfl
      exact hg w List.mem_cons_self hf
    rw [h.frame g fun w' hw' => hg w' (List.mem_cons_of_mem _ hw'), Store.getElem?_define, if_neg hne]
  size := by simpa using h.size
  closures := h.closures
  grows := (Store.Grows.define .refl f w.name v).trans h.grows

/-! ## Any number of writes -/

/-- The writes go to other frames than that of the symbols, so the symbols keep their values. -/
theorem inTurn_forms (fuel : Nat) {s : State} (hroot : s.store.Chain g [g])
    (hglobals : s.store.own g = globals) (hbound : ∀ w ∈ ws, w.Bound globals)
    (hobjects : ∀ w ∈ ws, ∀ f, w.target? globals = some f → f ≠ g ∧ f < s.store.frames.size) :
    ∃ vs t, (eval (fuel + 2)).InTurn g s (ws.map form) vs t ∧
      ws.map (value? globals) = vs.map some ∧ Made globals ws s.store t.store ∧
      t.console = s.console := by
  induction ws generalizing s with
  | nil => exact ⟨[], s, .nil, rfl, .refl, rfl⟩
  | cons w ws ih =>
    obtain ⟨⟨f, hf⟩, ⟨v, hv⟩⟩ := hbound w List.mem_cons_self
    obtain ⟨hne, hlt⟩ := hobjects w List.mem_cons_self f hf
    have heval : eval (fuel + 2) w.form g s = .value v ⟨s.store.define f w.name v, s.console⟩ :=
      eval_form hroot (hglobals ▸ hf) (hglobals ▸ hv) fuel
    obtain ⟨vs, t, hrest, hvalues, hmade, hconsole⟩ :=
      ih (s := ⟨s.store.define f w.name v, s.console⟩)
        (hroot.grows (.define .refl f w.name v))
        (by rw [Store.own_define_of_ne _ (Ne.symm hne), hglobals])
        (fun w' hw' => hbound w' (List.mem_cons_of_mem _ hw'))
        (fun w' hw' => by simpa using hobjects w' (List.mem_cons_of_mem _ hw'))
    refine ⟨v :: vs, t, .cons heval hrest, ?_, hmade.cons hf hv hlt, hconsole⟩
    rw [List.map_cons, List.map_cons, hv, hvalues]

namespace Made

theorem chain_eq (h : Made globals ws s t) (hs : s.Acyclic) (p : FrameId) :
    t.chain p = s.chain p := by
  by_cases hp : p < s.frames.size
  · obtain ⟨fs, hchain⟩ := hs.exists_chain hp
    rw [hchain.chain_eq, (hchain.grows h.grows).chain_eq]
  · have hle : s.frames.size ≤ p := Nat.not_lt.1 hp
    rw [Store.chain_of_le hle, Store.chain_of_le (h.size ▸ hle)]

theorem lookup?_of_written (h : Made globals ws s t) (ho : t.FirstOwner name p o)
    (hv : last? globals o name ws = some v) : t.lookup? p name = some v := by
  rw [Store.lookup?_eq_bind_owner?, ho.owner?_eq, Option.bind_some, h.get?, hv, Option.some_or]

/-- Where the first frame that owns the name was not written at it, it owned it before, and was the first
one to do so. -/
theorem lookup?_of_not_written (h : Made globals ws s t) (hs : s.Acyclic)
    (hnot : ∀ o, t.owner? p name = some o → last? globals o name ws = none) :
    t.lookup? p name = s.lookup? p name := by
  rw [Store.owner?, h.chain_eq hs] at hnot
  rw [Store.lookup?, Store.lookup?, h.chain_eq hs]
  generalize s.chain p = fs at hnot
  induction fs with
  | nil => rfl
  | cons f fs ih =>
    have hget := h.get? f name
    rw [List.findSome?_cons, List.findSome?_cons]
    cases ht : (t.own f).get? name with
    | some v =>
      have hf : (f :: fs).find? (fun g => (t.own g).owns name) = some f := by
        simp [Bindings.owns, ht]
      rw [hnot f hf, Option.none_or] at hget
      rw [← hget, ht]
    | none =>
      rw [ht, eq_comm, Option.or_eq_none_iff] at hget
      rw [hget.2]
      refine ih fun o ho => hnot o ?_
      simpa [Bindings.owns, ht] using ho

end Made

end PropertyWrite

/-! ## Sessions -/

/-- An object that a name is bound to has a frame, and it is not the global frame. -/
theorem Session.Reached.object_apart {i : Interpreter} {s : Session} (h : Reached i s)
    {f g : FrameId} {name : String}
    (hname : (s.state.store.own g).get? name = some (.object f)) :
    f ≠ i.globalFrame ∧ f < s.state.store.frames.size := by
  have hfresh : Store.fresh.ObjectsIn Store.fresh.IsObject :=
    fun f name v hv => .of_isPlain (Store.isPlain_fresh hv)
  obtain ⟨hupheld, hleads⟩ := h.upheld Discipline.total_objects hfresh
  have hobjects : s.state.store.ObjectsIn s.state.store.IsObject := hupheld.good
  obtain ⟨x, hx, hrole⟩ : s.state.store.IsObject f := hobjects g name _ hname f rfl
  refine ⟨?_, (Array.getElem?_eq_some_iff.1 hx).1⟩
  rintro rfl
  obtain ⟨vars, hvars⟩ := Store.getElem?_fresh_zero
  obtain ⟨vars', hvars'⟩ := hleads.grows.frame hvars
  rw [h.globalFrame_eq, hvars'] at hx
  cases hx
  exact hrole

theorem Session.Reached.chain_globalFrame {i : Interpreter} {s : Session} (h : Reached i s) :
    s.state.store.Chain i.globalFrame [i.globalFrame] := by
  rw [h.globalFrame_eq]
  exact .top h.linked.size_pos h.linked.root

/-- **Writes of properties stay on their objects.** In a session some properties are set in the global
frame, one after the other, where all symbols are bound there and those of the objects to objects. Then
all of this succeeds, with the values that were written. From any frame a name now means the last value
that was written to it in the first frame that owns it now, if any was, and else what it meant before.
Reading the property of an object yields just that. No frame has changed but those that were written. -/
theorem Session.Reached.property_writes {i : Interpreter} {s : Session} (h : Reached i s)
    {globals : Bindings} (hglobals : s.state.store.own i.globalFrame = globals)
    {ws : List PropertyWrite} (hbound : ∀ w ∈ ws, w.Bound globals) (fuel : Nat) :
    ∃ vs t, (eval (fuel + 2)).InTurn i.globalFrame s.state (ws.map PropertyWrite.form) vs t ∧
      ws.map (PropertyWrite.value? globals) = vs.map some ∧
      (∀ p name o v, t.store.FirstOwner name p o → PropertyWrite.last? globals o name ws = some v →
        t.meaning p name = .ok v) ∧
      (∀ p name, (∀ o, t.store.FirstOwner name p o → PropertyWrite.last? globals o name ws = none) →
        t.meaning p name = s.state.meaning p name) ∧
      (∀ p name, t.PropertyIs p name (t.meaning p name)) ∧
      (∀ f, (∀ w ∈ ws, w.target? globals ≠ some f) →
        t.store.frames[f]? = s.state.store.frames[f]?) ∧
      t.store.closures = s.state.store.closures ∧ t.console = s.state.console := by
  have hacyclic : s.state.store.Acyclic := h.linked.acyclic
  have hobjects : ∀ w ∈ ws, ∀ f, w.target? globals = some f →
      f ≠ i.globalFrame ∧ f < s.state.store.frames.size := by
    intro w _ f hf
    have hname : (s.state.store.own i.globalFrame).get? w.object = some (.object f) := by
      rw [hglobals]
      exact PropertyWrite.get?_of_target? hf
    exact h.object_apart hname
  obtain ⟨vs, t, hforms, hvalues, hmade, hconsole⟩ :=
    PropertyWrite.inTurn_forms fuel h.chain_globalFrame hglobals hbound hobjects
  refine ⟨vs, t, hforms, hvalues, ?_, ?_, t.propertyIs_meaning, hmade.frame, hmade.closures,
    hconsole⟩
  · intro p name o v ho hv
    exact State.meaning_eq_ok_iff.2 (hmade.lookup?_of_written ho hv)
  · intro p name hnot
    apply State.meaning_congr
    apply hmade.lookup?_of_not_written hacyclic
    intro o ho
    exact hnot o ((hacyclic.grows_of_size hmade.grows hmade.size).firstOwner ho)

/-- An instance gets a property that its class has too, twice, and another from what its class extends. -/
theorem Session.property_writes_of_derived : ∃ s vs t, Session.Reached ⟨0⟩ s ∧
    (eval 2).InTurn 0 s.state
      (List.map PropertyWrite.form [⟨"i", "x", .symbol "k"⟩, ⟨"A", "x", .str "new"⟩,
        ⟨"i", "x", .symbol "A"⟩, ⟨"A", "y", .str "far"⟩]) vs t ∧
    vs = [.str "k", .str "new", .object 1, .str "far"] ∧
    t.meaning 3 "x" = .ok (.object 1) ∧ t.meaning 2 "x" = .ok (.str "new") ∧
    t.meaning 3 "y" = .ok (.str "far") ∧
    t.meaning 3 "constructor" = s.state.meaning 3 "constructor" ∧
    t.store.frames[2]? = s.state.store.frames[2]? := by
  let code := "(class A null (var x \"a\")) (class B A (def constructor (me) me)) (var i (new B))
    (var k \"k\")"
  let ws : List PropertyWrite := [⟨"i", "x", .symbol "k"⟩, ⟨"A", "x", .str "new"⟩,
    ⟨"i", "x", .symbol "A"⟩, ⟨"A", "y", .str "far"⟩]
  let s : State := (Interpreter.run 50 ⟨0⟩ code ⟨Store.fresh, {}⟩).after?.getD {}
  let t : State := ((eval 2).values 0 (ws.map PropertyWrite.form) s).after?.getD {}
  let globals : Bindings := s.store.own 0
  obtain ⟨hrun, hbound, hvalues, hx, hclass, hfar⟩ :
      (Interpreter.run 50 ⟨0⟩ code ⟨Store.fresh, {}⟩).after? = some s ∧
      (∀ w ∈ ws, (w.target? globals).isSome ∧ (w.value? globals).isSome) ∧
      (eval 2).values 0 (ws.map PropertyWrite.form) s =
        .value [.str "k", .str "new", .object 1, .str "far"] t ∧
      t.store.lookup? 3 "x" = some (.object 1) ∧
      t.store.lookup? 2 "x" = some (.str "new") ∧
      t.store.lookup? 3 "y" = some (.str "far") := by decide +kernel
  obtain ⟨answers, hreached⟩ := Session.reached_of_run hrun
  have hws : ∀ w ∈ ws, w.Bound globals := fun w hw =>
    ⟨Option.isSome_iff_exists.1 (hbound w hw).1, Option.isSome_iff_exists.1 (hbound w hw).2⟩
  obtain ⟨vs, u, hforms, -, hlast, hkept, -, hframes, -⟩ :=
    Session.Reached.property_writes hreached rfl hws 0
  have hsame : Outcome.value vs u = .value [.str "k", .str "new", .object 1, .str "far"] t :=
    (Evaluator.values_eq_value_iff.2 hforms).symm.trans hvalues
  rw [Outcome.value.injEq] at hsame
  obtain ⟨hvs, hu⟩ := hsame
  rw [← hu] at hx hclass hfar
  have hconstructor : ∀ f, PropertyWrite.last? globals f "constructor" ws = none := by
    intro f
    simp [ws, PropertyWrite.last?]
  have hnamed : ∀ w ∈ ws, w.target? globals ≠ some 2 := by decide +kernel
  exact ⟨⟨s, answers⟩, vs, u, hreached, hforms, hvs, State.meaning_eq_ok_iff.2 hx,
    State.meaning_eq_ok_iff.2 hclass, State.meaning_eq_ok_iff.2 hfar,
    hkept 3 "constructor" fun o _ => hconstructor o, hframes 2 hnamed⟩

end ScopeLisp

import Mathlib.Data.List.Basic
import ScopeLisp.Proofs.Clauses
import ScopeLisp.Proofs.FormParts
import ScopeLisp.Proofs.Session

/-!
# Misshapen forms

A list headed by the name of a form has to have the shape of that form, and one that has not
(`Datum.Misshapen`) is refused before anything is evaluated: the error is the same in every frame
and every state, and it leaves the state as it was (`Datum.Refused`). Where sugar stands for a form
whose shape is wrong, that form is refused in its place. No other list that is headed by a name is
refused as it stands (`Datum.misshapen_of_ofDatum_error`). One fault is found later than the others:
the name of a property is looked at when the object has been evaluated already
(`Datum.MisnamedProperty.eval_eq`), so what this evaluation does is done, and its error comes first.
-/

namespace ScopeLisp

namespace Datum

def IsSymbol (d : Datum) : Prop := ∃ name, d = .symbol name

/-- A list of names. -/
def AreParams (d : Datum) : Prop := ∃ names : List String, d = .list (names.map .symbol)

/-- The forms with a fixed number of operands. -/
def operandCounts : List (String × Nat) :=
  [("var", 2), ("set", 2), ("prop", 2), ("if", 3), ("while", 2), ("lambda", 2), ("class", 3),
   ("def", 3)]

/-- A list that is headed by the name of a form and has not its shape. A property without a name is
left to `MisnamedProperty`. -/
inductive Misshapen : Datum → Prop
  | operandCount {tag : String} {n : Nat} {operands : List Datum} (htag : (tag, n) ∈ operandCounts)
      (h : operands.length ≠ n) : Misshapen (.list (.symbol tag :: operands))
  | noClass : Misshapen (.list [.symbol "new"])
  | declared {name value : Datum} (h : ¬ name.IsSymbol) :
      Misshapen (.list [.symbol "var", name, value])
  | className {name base body : Datum} (h : ¬ name.IsSymbol) :
      Misshapen (.list [.symbol "class", name, base, body])
  | defined {name params body : Datum} (h : ¬ name.IsSymbol ∨ ¬ params.AreParams) :
      Misshapen (.list [.symbol "def", name, params, body])
  | params {params body : Datum} (h : ¬ params.AreParams) :
      Misshapen (.list [.symbol "lambda", params, body])
  | target {target value : Datum} (hname : ¬ target.IsSymbol)
      (hprop : target.isTagged "prop" = false) : Misshapen (.list [.symbol "set", target, value])
  | targetCount {operands : List Datum} {value : Datum} (h : operands.length ≠ 2) :
      Misshapen (.list [.symbol "set", .list (.symbol "prop" :: operands), value])
  | clauses {ds : List Datum} (h : ¬ IsSwitch (.list (.symbol "switch" :: ds))) :
      Misshapen (.list (.symbol "switch" :: ds))

/-- A form that reads or sets a property of `object`, with something else in the place of the name
of the property. -/
inductive MisnamedProperty : (operation : String) → (object : Datum) → Datum → Prop
  | read {object name : Datum} (h : ¬ name.IsSymbol) :
      MisnamedProperty "prop" object (.list [.symbol "prop", object, name])
  | write {object name value : Datum} (h : ¬ name.IsSymbol) :
      MisnamedProperty "set" object
        (.list [.symbol "set", .list [.symbol "prop", object, name], value])

/-- Evaluation fails for the shape of `d` in every frame and state, and does nothing else. -/
def Refused (d : Datum) : Prop :=
  ∃ form fault, ∀ fuel env s, eval (fuel + 3) d env s = .error (.malformedForm form fault) s

end Datum

open Datum

/-! ## Names and parameters -/

namespace Form

theorem nameIn_of_not_isSymbol {d : Datum} (h : ¬ d.IsSymbol) (form : String) :
    nameIn form d = .error (.malformedForm form (.notAName d)) := by
  cases d with
  | symbol name => exact absurd ⟨name, rfl⟩ h
  | _ => rfl

theorem ofTag_var_of_not_isSymbol {name : Datum} (h : ¬ name.IsSymbol) (value : Datum) :
    ofTag "var" [name, value] = .error (.malformedForm "var" (.notAName name)) := by
  show nameIn "var" name >>= (fun x => .ok (Form.declare x value)) = _
  rw [nameIn_of_not_isSymbol h]
  rfl

theorem ofTag_class_of_not_isSymbol {name : Datum} (h : ¬ name.IsSymbol) (base body : Datum) :
    ofTag "class" [name, base, body] = .error (.malformedForm "class" (.notAName name)) := by
  show nameIn "class" name >>= (fun x => .ok (Form.classDef x base body)) = _
  rw [nameIn_of_not_isSymbol h]
  rfl

theorem exists_of_nameIn_eq_error {form : String} {d : Datum} {e : RunError}
    (h : nameIn form d = .error e) : ∃ fault, e = .malformedForm form fault := by
  cases d with
  | symbol name => cases h
  | _ =>
    cases h
    exact ⟨_, rfl⟩

theorem mapM_nameIn_of_not_areParams {ds : List Datum} (h : ¬ AreParams (.list ds))
    (form : String) : ∃ fault, ds.mapM (nameIn form) = .error (.malformedForm form fault) := by
  induction ds with
  | nil => exact absurd ⟨[], rfl⟩ h
  | cons d ds ih =>
    rw [List.mapM_cons]
    cases hname : nameIn form d with
    | error e =>
      obtain ⟨fault, rfl⟩ := exists_of_nameIn_eq_error hname
      exact ⟨fault, rfl⟩
    | ok name =>
      have hrest : ¬ AreParams (.list ds) := by
        rintro ⟨names, hds⟩
        refine h ⟨name :: names, ?_⟩
        cases hds
        rw [eq_symbol_of_nameIn hname, List.map_cons]
      obtain ⟨fault, hfault⟩ := ih hrest
      exact ⟨fault, by rw [hfault]; rfl⟩

theorem ofTag_lambda_of_not_areParams {params : Datum} (h : ¬ params.AreParams) (body : Datum) :
    ∃ form fault, ofTag "lambda" [params, body] = .error (.malformedForm form fault) := by
  cases params with
  | list ds =>
    obtain ⟨fault, hfault⟩ := mapM_nameIn_of_not_areParams h "lambda (in params)"
    refine ⟨"lambda (in params)", fault, ?_⟩
    show ds.mapM (nameIn "lambda (in params)") >>= (fun xs => .ok (Form.closure xs body)) = _
    rw [hfault]
    rfl
  | _ => exact ⟨_, _, rfl⟩

/-! ## Numbers of operands -/

theorem ofTag_of_length_ne {tag : String} {n : Nat} {operands : List Datum}
    (htag : (tag, n) ∈ operandCounts) (h : operands.length ≠ n) :
    ∃ fault, ofTag tag operands = .error (.malformedForm tag fault) := by
  simp only [operandCounts, List.mem_cons, Prod.mk.injEq, List.not_mem_nil, or_false] at htag
  -- in each form the operands are as many as they have to be, or their number is the fault
  rcases htag with ⟨rfl, rfl⟩ | ⟨rfl, rfl⟩ | ⟨rfl, rfl⟩ | ⟨rfl, rfl⟩ | ⟨rfl, rfl⟩ | ⟨rfl, rfl⟩ |
    ⟨rfl, rfl⟩ | ⟨rfl, rfl⟩ <;> simp only [ofTag, Datum.expandDef] <;> split
  all_goals first | exact absurd rfl h | exact ⟨_, rfl⟩ | skip
  -- a definition is taken apart as a whole list
  next heq =>
    cases heq
    exact absurd rfl h

/-! ## Targets -/

theorem ofTag_set_of_not_target {target : Datum} (hname : ¬ target.IsSymbol)
    (hprop : target.isTagged "prop" = false) (value : Datum) :
    ofTag "set" [target, value] = .error (.malformedForm "set" (.notAName target)) := by
  simp only [ofTag]
  split
  · next heq =>
    cases heq
    simp [isTagged, tag?] at hprop
  · next heq =>
    cases heq
    rw [nameIn_of_not_isSymbol hname]
    rfl
  · next hne => exact absurd rfl (hne target value)

theorem ofTag_set_of_length_ne {operands : List Datum} (h : operands.length ≠ 2) (value : Datum) :
    ∃ fault, ofTag "set" [.list (.symbol "prop" :: operands), value] =
      .error (.malformedForm "prop" fault) := by
  simp only [ofTag]
  split
  · exact absurd rfl h
  · exact ⟨_, rfl⟩

end Form

/-! ## Refusals -/

namespace Datum

variable {d name params body : Datum} {fuel : Nat} {env : FrameId} {s : State}

theorem eval_of_ofDatum_error {e : RunError} (h : Form.ofDatum d = .error e) :
    eval (fuel + 1) d env s = .error e s := by
  rw [eval_succ, evalDatum, h]
  rfl

theorem Refused.of_ofDatum {form : String} {fault : ShapeFault}
    (h : Form.ofDatum d = .error (.malformedForm form fault)) : Refused d :=
  ⟨form, fault, fun _ _ _ => eval_of_ofDatum_error h⟩

/-- The name and the parameters of a definition are looked at in what the sugar stands for. -/
theorem Refused.of_def (h : ¬ name.IsSymbol ∨ ¬ params.AreParams) :
    Refused (.list [.symbol "def", name, params, body]) := by
  have hdef : ∀ fuel env s, eval (fuel + 1) (.list [.symbol "def", name, params, body]) env s =
      eval fuel (.list [.symbol "var", name, .list [.symbol "lambda", params, body]]) env s :=
    fun _ _ _ => rfl
  by_cases hname : name.IsSymbol
  · obtain ⟨name, rfl⟩ := hname
    obtain ⟨form, fault, hfault⟩ :=
      Form.ofTag_lambda_of_not_areParams (h.resolve_left (not_not_intro ⟨name, rfl⟩)) body
    refine ⟨form, fault, fun fuel env s => ?_⟩
    have hlambda : eval (fuel + 1) (.list [.symbol "lambda", params, body]) env s =
      .error (.malformedForm form fault) s := eval_of_ofDatum_error hfault
    have hvar : eval (fuel + 2) (.list [.symbol "var", .symbol name,
        .list [.symbol "lambda", params, body]]) env =
      eval (fuel + 1) (.list [.symbol "lambda", params, body]) env >>= Action.define env name := rfl
    rw [hdef, hvar, Action.bind_apply, hlambda]
  · refine ⟨"var", .notAName name, fun fuel env s => ?_⟩
    rw [hdef]
    exact eval_of_ofDatum_error (Form.ofTag_var_of_not_isSymbol hname _)

theorem Misshapen.refused (h : Misshapen d) : Refused d := by
  cases h with
  | operandCount htag h =>
    obtain ⟨fault, hfault⟩ := Form.ofTag_of_length_ne htag h
    exact .of_ofDatum hfault
  | noClass => exact .of_ofDatum rfl
  | declared h => exact .of_ofDatum (Form.ofTag_var_of_not_isSymbol h _)
  | className h => exact .of_ofDatum (Form.ofTag_class_of_not_isSymbol h _ _)
  | defined h => exact .of_def h
  | params h =>
    obtain ⟨form, fault, hfault⟩ := Form.ofTag_lambda_of_not_areParams h _
    exact .of_ofDatum hfault
  | target hname hprop => exact .of_ofDatum (Form.ofTag_set_of_not_target hname hprop _)
  | targetCount h =>
    obtain ⟨fault, hfault⟩ := Form.ofTag_set_of_length_ne h _
    exact .of_ofDatum hfault
  | clauses h =>
    obtain ⟨fault, hfault⟩ := eval_of_not_isSwitch h
    exact ⟨"switch", fault, fun fuel => hfault (fuel + 2)⟩

/-! ## Nothing else has a wrong shape -/

theorem eq_list_of_isTagged {d : Datum} {tag : String} (h : d.isTagged tag = true) :
    ∃ operands, d = .list (.symbol tag :: operands) := by
  have htag : d.tag? = some tag := of_decide_eq_true h
  unfold tag? at htag
  split at htag
  · next operands =>
    cases htag
    exact ⟨operands, rfl⟩
  · cases htag

theorem misshapen_of_ofTag_error {tag : String} {operands : List Datum} {e : RunError}
    (h : Form.ofTag tag operands = .error e) : Misshapen (.list (.symbol tag :: operands)) := by
  have two : (tag, 2) ∈ operandCounts → (∀ a b, operands ≠ [a, b]) →
      Misshapen (.list (.symbol tag :: operands)) := fun htag hne =>
    .operandCount htag fun hlength =>
      let ⟨a, b, hab⟩ := List.length_eq_two.1 hlength
      hne a b hab
  have three : (tag, 3) ∈ operandCounts → (∀ a b c, operands ≠ [a, b, c]) →
      Misshapen (.list (.symbol tag :: operands)) := fun htag hne =>
    .operandCount htag fun hlength =>
      let ⟨a, b, c, habc⟩ := List.length_eq_three.1 hlength
      hne a b c habc
  unfold Form.ofTag at h
  split at h
  -- `var`
  · split at h
    · refine .declared ?_
      rintro ⟨name, rfl⟩
      cases h
    · next hne => exact two (by decide) hne
  -- `set`
  · split at h
    · split at h
      · cases h
      · next hne =>
        refine .targetCount fun hlength => ?_
        obtain ⟨object, name, rfl⟩ := List.length_eq_two.1 hlength
        exact hne object name rfl
    · next target value hne =>
      refine .target ?_ ?_
      · rintro ⟨name, rfl⟩
        cases h
      · refine Bool.eq_false_iff.2 fun htagged => ?_
        obtain ⟨operands, rfl⟩ := eq_list_of_isTagged htagged
        exact hne operands rfl
    · next hne => exact two (by decide) hne
  -- `prop`
  · split at h
    · cases h
    · next hne => exact two (by decide) hne
  -- `begin`
  · cases h
  -- `if`
  · split at h
    · cases h
    · next hne => exact three (by decide) hne
  -- `while`
  · split at h
    · cases h
    · next hne => exact two (by decide) hne
  -- `lambda`
  · split at h
    · refine .params ?_
      rintro ⟨names, hnames⟩
      cases hnames
      rw [Form.mapM_nameIn_symbol] at h
      cases h
    · next hne =>
      refine .params ?_
      rintro ⟨names, rfl⟩
      exact hne _ rfl
    · next hne => exact two (by decide) hne
  -- `class`
  · split at h
    · refine .className ?_
      rintro ⟨name, rfl⟩
      cases h
    · next hne => exact three (by decide) hne
  -- `new`
  · split at h
    · cases h
    · exact .noClass
  -- `switch`
  · refine .clauses ?_
    cases hnest : nestClauses operands with
    | error e' => exact not_isSwitch_of_error hnest
    | ok d =>
      rw [expandSwitch, hnest] at h
      cases h
  -- `def`
  · refine three (by decide) ?_
    rintro name params body rfl
    cases h
  -- a call
  · cases h

/-- What is not taken for a form is misshapen, but for the list of nothing. -/
theorem misshapen_of_ofDatum_error {e : RunError} (h : Form.ofDatum d = .error e)
    (hne : d ≠ .list []) : d.Misshapen := by
  unfold Form.ofDatum at h
  split at h
  · cases h
  · cases h
  · cases h
  · exact absurd rfl hne
  · exact misshapen_of_ofTag_error h
  · cases h

/-! ## Properties without a name -/

/-- What comes of a form that names a property by something else than a name, by what comes of the
object: the name is looked at when that has turned out to be an object. -/
def misnamed (operation : String) (fault : ShapeFault) :
    Outcome RunError Value → Outcome RunError Value
  | .value (.object _) t => .error (.malformedForm "prop" fault) t
  | .value v t => .error (.typeError operation .object v.kind) t
  | .error e t => .error e t
  | .unfinished => .unfinished

/-- Whatever `rest` would do with the property. -/
theorem misnamed_eq (hname : ¬ name.IsSymbol) (operation : String) (x : Action RunError Value)
    (rest : FrameId → String → Action RunError Value) :
    (x >>= fun o => Action.ofExcept (o.asObject operation) >>= fun frame =>
      Action.ofExcept (Form.nameIn "prop" name) >>= rest frame) s =
        misnamed operation (.notAName name) (x s) := by
  rw [Form.nameIn_of_not_isSymbol hname, Action.bind_apply]
  cases x s with
  | value v t => cases v <;> rfl
  | error | unfinished => rfl

theorem MisnamedProperty.eval_eq {operation : String} {object : Datum}
    (h : MisnamedProperty operation object d) :
    ∃ name : Datum, ¬ name.IsSymbol ∧ ∀ fuel env s,
      eval (fuel + 1) d env s =
        misnamed operation (.notAName name) (eval fuel object env s) := by
  cases h with
  | read h =>
    exact ⟨_, h, fun fuel env s => misnamed_eq h "prop" (eval fuel object env) Action.lookup⟩
  | @write _ _ value h =>
    exact ⟨_, h, fun fuel env s => misnamed_eq h "set" (eval fuel object env) fun frame name =>
      eval fuel value env >>= Action.define frame name⟩

/-- Fails for the shape of a form, in the state `s`. -/
def FailsForShape (o : Outcome RunError Value) (s : State) : Prop :=
  ∃ form fault, o = .error (.malformedForm form fault) s

theorem failsForShape_misnamed_iff {operation : String} {fault : ShapeFault}
    {o : Outcome RunError Value} :
    FailsForShape (misnamed operation fault o) s ↔
      (∃ f, o = .value (.object f) s) ∨ FailsForShape o s := by
  cases o with
  | value v t =>
    cases v with
    | object f =>
      constructor
      · rintro ⟨form, fault', h⟩
        cases h
        exact .inl ⟨f, rfl⟩
      · rintro (⟨f', h⟩ | ⟨form, fault', h⟩)
        · cases h
          exact ⟨"prop", fault, rfl⟩
        · cases h
    | _ => simp [FailsForShape, misnamed]
  | error e t => simp [FailsForShape, misnamed]
  | unfinished => simp [FailsForShape, misnamed]

/-- **Misshapen forms do nothing.** Such a form fails for its shape in every frame and every state,
and leaves the state as it was. If it is only a property that has no name, the object is evaluated
first, and what comes of the form is what `misnamed` makes of that. So it fails for its shape and
leaves the state as it was exactly if the object turns out to be one and its evaluation leaves the
state as it was, or itself fails like this. -/
theorem refused_of_misshapen (d : Datum) :
    (Misshapen d → Refused d) ∧
    ∀ operation object, MisnamedProperty operation object d →
      ∃ name : Datum, ¬ name.IsSymbol ∧ ∀ fuel env s,
        eval (fuel + 1) d env s = misnamed operation (.notAName name) (eval fuel object env s) ∧
        (FailsForShape (eval (fuel + 1) d env s) s ↔
          (∃ f, eval fuel object env s = .value (.object f) s) ∨
            FailsForShape (eval fuel object env s) s) := by
  refine ⟨fun h => h.refused, fun operation object h => ?_⟩
  obtain ⟨name, hname, hmisnamed⟩ := h.eval_eq
  refine ⟨name, hname, fun fuel env s => ⟨hmisnamed fuel env s, ?_⟩⟩
  rw [hmisnamed]
  exact failsForShape_misnamed_iff

theorem not_isSymbol_str (text : String) : ¬ IsSymbol (.str text) := nofun

/-- A definition with a parameter that is no name, and a property that is set. -/
theorem refused_of_misshapen_def :
    let params : Datum := .list [.symbol "x", .str "y"]
    let d : Datum := .list [.symbol "def", .symbol "f", params, .symbol "x"]
    let d' : Datum := .list
      [.symbol "set", .list [.symbol "prop", .symbol "o", .str "x"], .list [.symbol "print"]]
    let s : State := ⟨(({} : Store).addFrame .global none).2.define 0 "o" (.object 0), {}⟩
    Misshapen d ∧ Refused d ∧ MisnamedProperty "set" (.symbol "o") d' ∧
      FailsForShape (eval 2 d' 0 s) s := by
  intro params d d' s
  have hparams : ¬ params.AreParams := by
    rintro ⟨names, hnames⟩
    have hmem : Datum.str "y" ∈ names.map .symbol := by
      rw [← Datum.list.inj hnames]
      simp
    simp at hmem
  have hd : Misshapen d := .defined (.inr hparams)
  have hd' : MisnamedProperty "set" (.symbol "o") d' := .write (not_isSymbol_str "x")
  have hobject : eval 1 (.symbol "o") 0 s = .value (.object 0) s := by decide +kernel
  obtain ⟨_, _, hmisnamed⟩ := (refused_of_misshapen d').2 _ _ hd'
  exact ⟨hd, (refused_of_misshapen d).1 hd, hd', (hmisnamed 1 0 s).2.2 (.inl ⟨0, hobject⟩)⟩

/-- Not every form that has not its shape does nothing: here the object is evaluated, and that there
is no object is what the form fails for. -/
theorem not_refused_of_misnamed :
    ¬ ∀ d, (Misshapen d ∨ ∃ operation object, MisnamedProperty operation object d) → Refused d := by
  intro h
  have hmisnamed : MisnamedProperty "prop" (.list [.symbol "print", .str "ran"])
    (.list [.symbol "prop", .list [.symbol "print", .str "ran"], .str "x"]) :=
    .read (not_isSymbol_str "x")
  obtain ⟨form, fault, hrefused⟩ := h _ (.inr ⟨_, _, hmisnamed⟩)
  have hrun : eval 3 (.list [.symbol "prop", .list [.symbol "print", .str "ran"], .str "x"]) 0
      ⟨Store.fresh, {}⟩ =
    .error (.typeError "prop" .object .unit) ⟨Store.fresh, ({} : Console).print "ran"⟩ := by
    decide +kernel
  rw [hrefused 0] at hrun
  cases hrun

end Datum

end ScopeLisp

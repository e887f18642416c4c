import ScopeLisp.Proofs.Lockstep
import ScopeLisp.Proofs.Session

/-!
# Answers

The host sees of a run what its value is, or the error, and what was written to the console
(`Interpreter.answer?`). Runs on twins are answered alike (`Twins.rel_answer?`). To begin with, the
global frame of a new interpreter is a twin of itself (`Twins.alike_root`), also in a store in which
a name has been bound that the program does not look up. So the answer does not depend on such a
name.
-/

namespace ScopeLisp

/-- What the host sees of a value. -/
structure Shown where
  kind : Kind
  text : String
  truth : Bool
deriving DecidableEq, Repr

def Value.shown (s : Store) (v : Value) : Shown := ⟨v.kind, v.text s, v.truth⟩

/-- What the host sees of a run. -/
structure Answer where
  result : Except ProgramError Shown
  printed : String
  logged : String
deriving DecidableEq, Repr

/-- The rest of a text that begins with `before`. -/
def Text.added (before after : String) : String :=
  String.ofList (after.toList.drop before.toList.length)

theorem Text.added_append (before rest : String) : Text.added before (before ++ rest) = rest := by
  simp [added]

/-- Runs a program. There is no answer if it does not come to an end. -/
def Interpreter.answer? (fuel : Nat) (i : Interpreter) (code : String) (s : State) :
    Option (Answer × State) :=
  (i.run fuel code s).result?.map fun (r, t) =>
    ({ result := r.map (Value.shown t.store)
       printed := Text.added s.console.out t.console.out
       logged := Text.added s.console.err t.console.err }, t)

namespace Twins

variable {P : String → Prop} {w : Twins} {i j : Interpreter} {fuel : Nat} {code : String}

theorem Alike.shown_eq (h : w.Alike P) {v v' : Value} (hv : w.Like v v') :
    v.shown w.left = v'.shown w.right := by
  rw [Value.shown, Value.shown, hv.kind_eq, hv.truth_eq, h.text_eq hv]

/-- The same answer to runs that began with the stores of `w` and the consoles `c` and `d`, which
have left alike stores. -/
def SameAnswer (P : String → Prop) (w : Twins) (c d : Console) (x y : Answer × State) : Prop :=
  x.1 = y.1 ∧ Console.Written c d x.2.console y.2.console ∧
    ∃ w', w.Leads P w' ∧ x.2.store = w'.left ∧ y.2.store = w'.right

theorem map_fst_eq {c d : Console} {x y : Option (Answer × State)}
    (h : Option.Rel (w.SameAnswer P c d) x y) :
    x.map Prod.fst = y.map Prod.fst := by
  cases h with
  | some h => exact congrArg some h.1
  | none => rfl

theorem rel_answer? (hrun : Agree P w (i.run fuel code) (j.run fuel code) fun w => w.Like)
    {c d : Console} (hdebug : c.debug = d.debug) :
    Option.Rel (w.SameAnswer P c d) (i.answer? fuel code ⟨w.left, c⟩)
      (j.answer? fuel code ⟨w.right, d⟩) := by
  have h := hrun c d hdebug
  unfold Interpreter.answer?
  generalize i.run fuel code ⟨w.left, c⟩ = o at h ⊢
  generalize j.run fuel code ⟨w.right, d⟩ = o' at h ⊢
  cases h with
  | @value w' a b c' d' hw hv hc =>
    refine .some ⟨?_, hc, w', hw, rfl, rfl⟩
    obtain ⟨out, err, rfl, rfl⟩ := hc
    simp only [Except.map, hw.alike.shown_eq hv, Console.extend, Text.added_append]
  | @error w' e c' d' hw hc =>
    refine .some ⟨?_, hc, w', hw, rfl, rfl⟩
    obtain ⟨out, err, rfl, rfl⟩ := hc
    simp only [Except.map, Console.extend, Text.added_append]
  | unfinished => exact .none

end Twins

/-! ## New interpreters -/

namespace Store

variable {s t : Store} {f g : FrameId}

theorem own_defineAll_of_ne (h : g ≠ f) (entries : List (String × Value)) :
    (s.defineAll f entries).own g = s.own g := by
  induction entries generalizing s with
  | nil => rfl
  | cons e entries ih => rw [defineAll_cons, ih, own_define_of_ne _ h]

theorem grows_withGlobal : s.Grows s.withGlobal :=
  Grows.trans (.addFrame .refl .global none) grows_defineAll

theorem own_withGlobal_of_ne (h : f ≠ s.frames.size) : s.withGlobal.own f = s.own f := by
  rw [withGlobal, own_defineAll_of_ne h, own_addFrame]

/-- A frame is in no other and holds no handles. -/
structure Pristine (s : Store) (f : FrameId) : Prop where
  lt : f < s.frames.size
  top : s.parent? f = none
  plain : ∀ {name v}, (s.own f).get? name = some v → v.IsPlain

theorem pristine_withGlobal_self (s : Store) : s.withGlobal.Pristine s.frames.size where
  lt := by
    rw [withGlobal, size_defineAll, size_addFrame]
    exact Nat.lt_succ_self _
  top := by rw [withGlobal, parent?_defineAll, parent?_addFrame, if_pos rfl]
  plain h := by
    rcases isPlain_of_withGlobal h with h | h
    · rw [own_of_le (Nat.le_refl _)] at h
      cases h
    · exact h

theorem Pristine.withGlobal (h : s.Pristine f) : s.withGlobal.Pristine f where
  lt := Nat.lt_of_lt_of_le h.lt grows_withGlobal.size_le
  top := by rw [grows_withGlobal.parent? h.lt, h.top]
  plain hv := by
    rw [own_withGlobal_of_ne (Nat.ne_of_lt h.lt)] at hv
    exact h.plain hv

end Store

namespace Interpreter

variable {ε : Type} {s t : State} {i : Interpreter}

theorem pristine_of_fresh (h : (fresh s : Outcome ε Interpreter) = .value i t) :
    t.store.Pristine i.globalFrame := by
  rw [fresh_eq] at h
  obtain ⟨rfl, rfl⟩ := Outcome.value.inj h
  exact s.store.pristine_withGlobal_self

/-- A new global frame is none of the old frames, and leaves them as they are. -/
theorem pristine_of_old (h : (fresh s : Outcome ε Interpreter) = .value i t) {f : FrameId}
    (hf : s.store.Pristine f) : t.store.Pristine f ∧ f ≠ i.globalFrame := by
  rw [fresh_eq] at h
  obtain ⟨rfl, rfl⟩ := Outcome.value.inj h
  exact ⟨hf.withGlobal, Nat.ne_of_lt hf.lt⟩

end Interpreter

namespace Twins

variable {P : String → Prop} {s t : Store} {f : FrameId}

/-- Only the frame `f` is taken for itself, and if `named`, its names count. -/
def root (s t : Store) (f : FrameId) (named : Prop) : Twins where
  frame a b := a = f ∧ b = f
  object a b := named ∧ a = f ∧ b = f
  closure _ _ := False
  left := s
  right := t

theorem alike_root {named : Prop} (h : s.Pristine f) (hg : s.Grows t)
    (hvalue : ∀ name, P name → (t.own f).get? name = (s.own f).get? name)
    (hnames : named → s.names f = t.names f) : (root s t f named).Alike P where
  chain := by
    rintro _ _ ⟨ha, hb⟩
    rw [ha, hb]
    have hchain : s.Chain f [f] := .top h.lt h.top
    exact ⟨[f], [f], hchain, hchain.grows hg, .cons ⟨rfl, rfl⟩ .nil⟩
  frame_iff := by
    rintro _ _ _ _ ⟨ha, hb⟩ ⟨ha', hb'⟩
    rw [ha, hb, ha', hb']
  frame_of_object hf := hf.2
  value := by
    rintro _ _ name ⟨ha, hb⟩ hname
    rw [ha, hb]
    show Option.Rel _ ((s.own f).get? name) ((t.own f).get? name)
    rw [hvalue name hname]
    cases hv : (s.own f).get? name with
    | some v => exact .some (.plain (h.plain hv))
    | none => exact .none
  names := by
    rintro _ _ ⟨hnamed, ha, hb⟩
    rw [ha, hb]
    exact hnames hnamed
  closure_iff hab := hab.elim
  closure hab := hab.elim

end Twins

namespace Interpreter

variable {i : Interpreter} {s₀ s : State}

/-- **A program depends only on the names that it mentions.** Before a program is run on a new
interpreter, a name that is no symbol of it may be bound to anything, also the name of a constant or
of a native procedure: with any fuel there is an answer as there was without, and it is the same.
The name `constructor` is looked up in classes unasked, and so it is left out. -/
theorem answer_of_unmentioned {ε : Type}
    (hfresh : (fresh s₀ : Outcome ε Interpreter) = .value i s) (fuel : Nat) (code name : String)
    (v : Value) (hname : name ≠ "constructor")
    (hcode : ∀ ds, Datum.readText code = .ok ds → name ∉ Datum.symbolsAll ds) :
    (i.answer? fuel code { s with store := s.store.define i.globalFrame name v }).map Prod.fst =
      (i.answer? fuel code s).map Prod.fst := by
  have hpristine := pristine_of_fresh hfresh
  have halike : (Twins.root s.store (s.store.define i.globalFrame name v) i.globalFrame
      False).Alike (· ≠ name) := by
    refine Twins.alike_root hpristine (.define .refl ..) (fun other hother => ?_) False.elim
    rw [Store.own_define _ hpristine.lt, if_pos rfl, Bindings.get?_insert, if_neg hother]
  have hrun : Twins.Agree _ _ (i.run fuel code) (i.run fuel code) _ :=
    Twins.run_agree hname.symm fuel halike ⟨rfl, rfl⟩
      fun ds hds other hother heq => hcode ds hds (heq ▸ hother)
  have hrel := Twins.rel_answer? hrun (c := s.console) (d := s.console) rfl
  exact (Twins.map_fst_eq hrel).symm

/-- A `switch` is made of `if`, and does not look it up. -/
theorem answer_of_switch_with_if_bound :
    let code := "(print (switch ((= \"a\" \"b\") c) (else \"d\")))"
    let s : State := ⟨Store.fresh.define 0 "if" (.str "no form"), {}⟩
    "if" ∉ Datum.symbolsAll ((Datum.readText code).toOption.getD []) ∧
      (answer? 20 ⟨0⟩ code s).map Prod.fst = some ⟨.ok ⟨.unit, "<unit>", false⟩, "d\n", ""⟩ := by
  intro code s
  have hcode : "if" ∉ Datum.symbolsAll ((Datum.readText code).toOption.getD []) := by
    decide +kernel
  refine ⟨hcode, ?_⟩
  have hfresh : (fresh ⟨{}, {}⟩ : Outcome Empty Interpreter) = .value ⟨0⟩ ⟨Store.fresh, {}⟩ :=
    fresh_eq _
  rw [answer_of_unmentioned hfresh 20 code "if" (.str "no form") (by decide) fun ds hds => ?_]
  · decide +kernel
  · rw [hds] at hcode
    exact hcode

end Interpreter

end ScopeLisp

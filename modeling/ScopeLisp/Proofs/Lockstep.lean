import ScopeLisp.Interpreter
import ScopeLisp.Proofs.Agreement

/-!
# Evaluation in lockstep

Evaluating the same code in a frame and in its twin goes the same way (`Twins.eval_lockstep`): one
case for each form, which says how the rules of agreement make it up, and an induction on the fuel.
The code may look up only names with `P`, and `constructor` has to be one of them, since `new` looks
it up unasked.
-/

namespace ScopeLisp

open Twins

/-- The evaluator agrees with itself in all twins, on code that looks up names with `P`. -/
def Evaluator.Lockstep (P : String → Prop) (eval : Evaluator) : Prop :=
  ∀ (w : Twins) (d : Datum) (f g : FrameId), w.Alike P → w.frame f g → d.Code P →
    Agree P w (eval d f) (eval d g) fun w => w.Like

namespace Evaluator.Lockstep

variable {P : String → Prop} {eval : Evaluator} {w : Twins} {f g : FrameId}

theorem block (h : eval.Lockstep P) (hw : w.Alike P) (hf : w.frame f g) {ds : List Datum}
    (hds : ∀ d ∈ ds, d.Code P) {last last' : Value} (hlast : w.Like last last') :
    Agree P w (eval.block f last ds) (eval.block g last' ds) fun w => w.Like := by
  induction ds generalizing w last last' with
  | nil => exact .pure hw hlast
  | cons d ds ih =>
    refine .bind (h w d f g hw hf (hds d List.mem_cons_self)) fun w' v v' hw' hv => ?_
    exact ih hw'.alike (hw'.sub.frame hf) (fun d' hd' => hds d' (List.mem_cons_of_mem _ hd')) hv

theorem values (h : eval.Lockstep P) (hw : w.Alike P) (hf : w.frame f g) {ds : List Datum}
    (hds : ∀ d ∈ ds, d.Code P) :
    Agree P w (eval.values f ds) (eval.values g ds) fun w => List.Forall₂ w.Like := by
  induction ds generalizing w with
  | nil => exact .pure hw .nil
  | cons d ds ih =>
    refine .bind (h w d f g hw hf (hds d List.mem_cons_self)) fun w' v v' hw' hv => ?_
    refine .bind (ih hw'.alike (hw'.sub.frame hf)
      fun d' hd' => hds d' (List.mem_cons_of_mem _ hd')) fun w'' vs vs' hw'' hvs => ?_
    exact .pure hw''.alike (.cons (hv.mono hw''.sub) hvs)

theorem body (h : eval.Lockstep P) (hw : w.Alike P) (hf : w.frame f g) {d : Datum}
    (hd : d.Code P) : Agree P w (eval.body f d) (eval.body g d) fun w => w.Like := by
  unfold Evaluator.body
  split
  · next ds => exact h.block hw hf (hd.mentions rfl).parts .unit
  · exact h w d f g hw hf hd

theorem loop (h : eval.Lockstep P) {condition d : Datum} (hc : condition.Code P) (hd : d.Code P)
    (limit : Nat) (hw : w.Alike P) (hf : w.frame f g) {last last' : Value}
    (hlast : w.Like last last') :
    Agree P w (eval.loop f condition d limit last) (eval.loop g condition d limit last')
      fun w => w.Like := by
  induction limit generalizing w last last' with
  | zero => exact .spent
  | succ limit ih =>
    refine .bind (h w condition f g hw hf hc) fun w' test test' hw' htest => ?_
    have hf' := hw'.sub.frame hf
    rw [htest.truth_eq]
    split
    · refine .bind (h w' d f g hw'.alike hf' hd) fun w'' v v' hw'' hv => ?_
      exact ih hw''.alike (hw''.sub.frame hf') hv
    · exact .pure hw'.alike (hlast.mono hw'.sub)

theorem callClosure (h : eval.Lockstep P) (callee : String) {c : Closure} {scope : FrameId}
    (hw : w.Alike P) (hscope : w.frame c.scope scope) (hbody : c.body.Code P)
    {args args' : List Value} (hargs : List.Forall₂ w.Like args args') :
    Agree P w (eval.callClosure callee c args) (eval.callClosure callee { c with scope } args')
      fun w => w.Like := by
  unfold Evaluator.callClosure
  rw [hargs.length_eq]
  split
  · refine .bind (.newFrame hw hscope .call .call) fun w' frame frame' hw' hframe => ?_
    have hframe := hw'.alike.frame_of_object hframe
    refine .bind (.defineAll hw'.alike hframe c.params
      (hargs.imp fun _ _ hv => hv.mono hw'.sub)) fun w'' _ _ hw'' _ => ?_
    exact h.body hw''.alike (hw''.sub.frame hframe) hbody
  · exact .fail hw _

theorem callProc (h : eval.Lockstep P) (callee : String) (hw : w.Alike P) {a b : ClosureId}
    (hab : w.closure a b) {args args' : List Value} (hargs : List.Forall₂ w.Like args args') :
    Agree P w (eval.callProc callee a args) (eval.callProc callee b args') fun w => w.Like := by
  refine .bind (.closure? hw hab) fun w' r r' hw' hr => ?_
  obtain ⟨c, scope, rfl, rfl, hscope, hbody⟩ := hr
  exact h.callClosure callee hw'.alike hscope hbody (hargs.imp fun _ _ hv => hv.mono hw'.sub)

theorem call (h : eval.Lockstep P) (head : Datum) (hw : w.Alike P) {callee callee' : Value}
    (hcallee : w.Like callee callee') {args args' : List Value}
    (hargs : List.Forall₂ w.Like args args') :
    Agree P w (eval.call head callee args) (eval.call head callee' args') fun w => w.Like := by
  cases hcallee with
  | plain hv =>
    cases callee with
    | native op => exact .native hw op hargs
    | proc => exact absurd rfl hv.1
    | object => exact absurd rfl hv.2
    | _ => exact .fail hw _
  | proc hab => exact h.callProc head.text hw hab hargs
  | object => exact .fail hw _

/-! ## The forms -/

theorem newBlock (h : eval.Lockstep P) {ds : List Datum} {limit : Nat} (hw : w.Alike P)
    (hf : w.frame f g) (hds : ∀ d ∈ ds, d.Code P) :
    Agree P w (evalForm limit eval f (.block ds)) (evalForm limit eval g (.block ds))
      fun w => w.Like := by
  refine .bind (.newFrame hw hf .block .block) fun w' frame frame' hw' hframe => ?_
  exact h.block hw'.alike (hw'.alike.frame_of_object hframe) hds .unit

theorem setProperty (h : eval.Lockstep P) {object name value : Datum} {limit : Nat}
    (hw : w.Alike P) (hf : w.frame f g) (hobject : object.Code P) (hvalue : value.Code P) :
    Agree P w (evalForm limit eval f (.setProperty object name value))
      (evalForm limit eval g (.setProperty object name value)) fun w => w.Like := by
  refine .bind (h w object f g hw hf hobject) fun w₁ o o' hw₁ ho => ?_
  refine .bind (.asObject hw₁.alike "set" ho) fun w₂ a b hw₂ hab => ?_
  refine .bind (.name hw₂.alike "prop" name) fun w₃ text _ hw₃ htext => ?_
  obtain ⟨rfl, -⟩ := htext
  have hf₃ := (hw₁.trans (hw₂.trans hw₃)).sub.frame hf
  refine .bind (h w₃ value f g hw₃.alike hf₃ hvalue) fun w₄ v v' hw₄ hv => ?_
  have hab₄ := (hw₃.trans hw₄).sub.frame hab
  exact .define hw₄.alike hab₄ text hv

theorem property (h : eval.Lockstep P) {object name : Datum} {limit : Nat} (hw : w.Alike P)
    (hf : w.frame f g) (hobject : object.Code P)
    (hname : ∀ text ∈ (Form.property object name).lookups, P text) :
    Agree P w (evalForm limit eval f (.property object name))
      (evalForm limit eval g (.property object name)) fun w => w.Like := by
  refine .bind (h w object f g hw hf hobject) fun w₁ o o' hw₁ ho => ?_
  refine .bind (.asObject hw₁.alike "prop" ho) fun w₂ a b hw₂ hab => ?_
  refine .bind (.name hw₂.alike "prop" name) fun w₃ text _ hw₃ htext => ?_
  obtain ⟨rfl, rfl⟩ := htext
  exact .lookup hw₃.alike (hw₃.sub.frame hab) (hname text List.mem_cons_self)

theorem classDef (h : eval.Lockstep P) {name : String} {base body : Datum} {limit : Nat}
    (hw : w.Alike P) (hf : w.frame f g) (hbase : base.Code P) (hbody : body.Code P) :
    Agree P w (evalForm limit eval f (.classDef name base body))
      (evalForm limit eval g (.classDef name base body)) fun w => w.Like := by
  refine .bind (h w base f g hw hf hbase) fun w₁ b b' hw₁ hb => ?_
  have hf₁ := hw₁.sub.frame hf
  refine .bind (.asBase hw₁.alike hf₁ hb) fun w₂ base base' hw₂ hscope => ?_
  refine .bind (.newFrame hw₂.alike hscope _ _) fun w₃ cls cls' hw₃ hcls => ?_
  refine .bind (h.body hw₃.alike (hw₃.alike.frame_of_object hcls) hbody) fun w₄ _ _ hw₄ _ => ?_
  have hcls₄ := hw₄.sub.object hcls
  have hf₄ := (hw₂.trans (hw₃.trans hw₄)).sub.frame hf₁
  exact .define hw₄.alike hf₄ name (.object hcls₄)

theorem instantiate (h : eval.Lockstep P) (hconstructor : P "constructor") {cls : Datum}
    {args : List Datum} {limit : Nat} (hw : w.Alike P) (hf : w.frame f g) (hcls : cls.Code P)
    (hargs : ∀ d ∈ args, d.Code P) :
    Agree P w (evalForm limit eval f (.instantiate cls args))
      (evalForm limit eval g (.instantiate cls args)) fun w => w.Like := by
  refine .bind (h w cls f g hw hf hcls) fun w₁ c c' hw₁ hc => ?_
  refine .bind (.asObject hw₁.alike "new" hc) fun w₂ cls cls' hw₂ hcls => ?_
  refine .bind (.newFrame hw₂.alike hcls _ _) fun w₃ a b hw₃ hab => ?_
  have hf₃ := (hw₁.trans (hw₂.trans hw₃)).sub.frame hf
  refine .bind (h.values hw₃.alike hf₃ hargs) fun w₄ vs vs' hw₄ hvs => ?_
  have hcls₄ := (hw₃.trans hw₄).sub.frame hcls
  refine .bind (.lookup hw₄.alike hcls₄ hconstructor) fun w₅ v v' hw₅ hv => ?_
  have hab₅ := (hw₄.trans hw₅).sub.object hab
  -- Only a closure can be a constructor; anything else fails with its kind.
  cases hv with
  | plain hv =>
    cases v with
    | proc => exact absurd rfl hv.1
    | object => exact absurd rfl hv.2
    | _ => exact .fail hw₅.alike _
  | proc hproc =>
    have hall : List.Forall₂ w₅.Like (.object a :: vs) (.object b :: vs') :=
      .cons (.object hab₅) (hvs.imp fun _ _ hv => hv.mono hw₅.sub)
    refine .bind (h.callProc "constructor" hw₅.alike hproc hall) fun w₆ _ _ hw₆ _ => ?_
    exact .pure hw₆.alike (.object (hw₆.sub.object hab₅))
  | object => exact .fail hw₅.alike _

theorem evalForm (h : eval.Lockstep P) (hconstructor : P "constructor") {form : Form}
    {limit : Nat} (hw : w.Alike P) (hf : w.frame f g) (hform : form.Mentions P) :
    Agree P w (evalForm limit eval f form) (evalForm limit eval g form) fun w => w.Like := by
  have hparts := hform.parts
  cases form with
  | number x => exact .pure hw (.number x)
  | str text => exact .pure hw (.str text)
  | reference name => exact .lookup hw hf (hform.lookups name List.mem_cons_self)
  | declare name value =>
    have hvalue := hparts value List.mem_cons_self
    refine .bind (h w value f g hw hf hvalue) fun w₁ v v' hw₁ hv => ?_
    exact .define hw₁.alike (hw₁.sub.frame hf) name hv
  | assign name value =>
    have hvalue := hparts value List.mem_cons_self
    have hname := hform.lookups name List.mem_cons_self
    refine .bind (h w value f g hw hf hvalue) fun w₁ v v' hw₁ hv => ?_
    exact .assign hw₁.alike (hw₁.sub.frame hf) hname hv
  | setProperty object name value =>
    exact h.setProperty hw hf (hparts _ (by simp [Form.parts])) (hparts _ (by simp [Form.parts]))
  | property object name => exact h.property hw hf (hparts _ List.mem_cons_self) hform.lookups
  | block ds => exact h.newBlock hw hf hparts
  | branch condition consequence alternative =>
    have hcondition := hparts condition List.mem_cons_self
    refine .bind (h w condition f g hw hf hcondition) fun w₁ test test' hw₁ htest => ?_
    rw [htest.truth_eq]
    refine h w₁ _ f g hw₁.alike (hw₁.sub.frame hf) (hparts _ ?_)
    split <;> simp [Form.parts]
  | loop condition body =>
    exact h.loop (hparts _ (by simp [Form.parts])) (hparts _ (by simp [Form.parts])) limit hw hf
      .unit
  | closure params body =>
    have hbody := hparts body List.mem_cons_self
    refine .bind (.newClosure hw hf params hbody) fun w₁ a b hw₁ hab => ?_
    exact .pure hw₁.alike (.proc hab)
  | classDef name base body =>
    exact h.classDef hw hf (hparts _ (by simp [Form.parts])) (hparts _ (by simp [Form.parts]))
  | instantiate cls args =>
    exact h.instantiate hconstructor hw hf (hparts _ List.mem_cons_self)
      fun d hd => hparts d (List.mem_cons_of_mem _ hd)
  | call head args =>
    have hhead := hparts head List.mem_cons_self
    refine .bind (h w head f g hw hf hhead) fun w₁ callee callee' hw₁ hcallee => ?_
    refine .bind (h.values hw₁.alike (hw₁.sub.frame hf)
      fun d hd => hparts d (List.mem_cons_of_mem _ hd)) fun w₂ vs vs' hw₂ hvs => ?_
    exact h.call head hw₂.alike (hcallee.mono hw₂.sub) hvs
  | expand d => exact h w d f g hw hf (hparts d List.mem_cons_self)

theorem evalDatum (h : eval.Lockstep P) (hconstructor : P "constructor") (limit : Nat) :
    (evalDatum limit eval).Lockstep P := by
  intro w d f g hw hf hd
  unfold ScopeLisp.evalDatum
  cases hform : Form.ofDatum d with
  | ok form => exact h.evalForm hconstructor hw hf (hd.mentions hform)
  | error e => exact .fail hw e

end Evaluator.Lockstep

namespace Twins

variable {P : String → Prop} {w : Twins} {i j : Interpreter}

/-- Evaluation does not tell twins apart if the code looks up only names by which they are alike. -/
theorem eval_lockstep (hconstructor : P "constructor") (fuel : Nat) : (eval fuel).Lockstep P := by
  induction fuel with
  | zero => exact fun w d f g _ _ _ => .spent
  | succ fuel ih => exact ih.evalDatum hconstructor fuel

theorem evalGlobal_agree (hconstructor : P "constructor") (fuel : Nat) (hw : w.Alike P)
    (hi : w.frame i.globalFrame j.globalFrame) {d : Datum} (hd : d.Code P) :
    Agree P w (i.evalGlobal fuel d) (j.evalGlobal fuel d) fun w => w.Like := by
  refine .bind (.log hw .debug d.text) fun w' _ _ hw' _ => ?_
  exact (eval_lockstep hconstructor fuel).body hw'.alike (hw'.sub.frame hi) hd

theorem evalProgram_agree (hconstructor : P "constructor") (fuel : Nat) (hw : w.Alike P)
    (hi : w.frame i.globalFrame j.globalFrame) {ds : List Datum} (hds : ∀ d ∈ ds, d.Code P)
    {last last' : Value} (hlast : w.Like last last') :
    Agree P w (i.evalProgram fuel last ds) (j.evalProgram fuel last' ds) fun w => w.Like := by
  induction ds generalizing w last last' with
  | nil => exact .pure hw hlast
  | cons d ds ih =>
    have hd := hds d List.mem_cons_self
    refine .bind (evalGlobal_agree hconstructor fuel hw hi hd) fun w' v v' hw' hv => ?_
    exact ih hw'.alike (hw'.sub.frame hi) (fun d' hd' => hds d' (List.mem_cons_of_mem _ hd')) hv

/-- Two interpreters whose global frames are twins run a program alike. -/
theorem run_agree (hconstructor : P "constructor") (fuel : Nat) (hw : w.Alike P)
    (hi : w.frame i.globalFrame j.globalFrame) {code : String}
    (hcode : ∀ ds, Datum.readText code = .ok ds → ∀ name ∈ Datum.symbolsAll ds, P name) :
    Agree P w (i.run fuel code) (j.run fuel code) fun w => w.Like := by
  unfold Interpreter.run
  cases hread : Datum.readText code with
  | error e => exact .fail hw _
  | ok ds =>
    have hds := Datum.Code.items (hcode ds hread)
    exact .mapError (evalProgram_agree hconstructor fuel hw hi hds .unit)

end Twins

end ScopeLisp

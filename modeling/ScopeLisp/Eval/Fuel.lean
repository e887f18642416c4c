import ScopeLisp.Eval

/-!
# Fuel

Fuel bounds an evaluation and decides nothing else: an outcome reached with some fuel is reached
with any greater one (`eval_eq_of_le`). The argument is that every combinator the evaluator is made
of keeps the order `Action.Refines`.
-/

namespace ScopeLisp

/-- `y` comes out as `x` does wherever `x` finishes. -/
def Action.Refines {ε α : Type} (x y : Action ε α) : Prop := ∀ s, x s = .unfinished ∨ y s = x s

namespace Action.Refines

variable {ε α β : Type}

theorem refl (x : Action ε α) : Refines x x := fun _ => .inr rfl

theorem spent (x : Action ε α) : Refines .spent x := fun _ => .inl rfl

theorem bind {x y : Action ε α} {f g : α → Action ε β} (h : Refines x y)
    (hf : ∀ a, Refines (f a) (g a)) : Refines (x >>= f) (y >>= g) := by
  intro s
  rw [bind_apply, bind_apply]
  rcases h s with h | h
  · exact .inl (by rw [h])
  · rw [h]
    cases x s with
    | value a s => exact hf a s
    | error e s => exact .inr rfl
    | unfinished => exact .inl rfl

end Action.Refines

/-- Every datum in every frame comes out under `eval'` as it does under `eval` wherever that
finishes. -/
def Evaluator.Refines (eval eval' : Evaluator) : Prop :=
  ∀ d env, Action.Refines (eval d env) (eval' d env)

namespace Evaluator.Refines

variable {eval eval' : Evaluator}

theorem block (h : Evaluator.Refines eval eval') (env : FrameId) (last : Value) (ds : List Datum) :
    Action.Refines (eval.block env last ds) (eval'.block env last ds) := by
  induction ds generalizing last with
  | nil => exact .refl _
  | cons d ds ih => exact .bind (h d env) fun v => ih v

theorem values (h : Evaluator.Refines eval eval') (env : FrameId) (ds : List Datum) :
    Action.Refines (eval.values env ds) (eval'.values env ds) := by
  induction ds with
  | nil => exact .refl _
  | cons d ds ih => exact .bind (h d env) fun v => .bind ih fun vs => .refl _

theorem body (h : Evaluator.Refines eval eval') (env : FrameId) (d : Datum) :
    Action.Refines (eval.body env d) (eval'.body env d) := by
  unfold Evaluator.body
  split
  · exact h.block env .unit _
  · exact h d env

theorem loop (h : Evaluator.Refines eval eval') (env : FrameId) (condition d : Datum)
    {limit limit' : Nat} (hl : limit ≤ limit') (last : Value) :
    Action.Refines (eval.loop env condition d limit last)
      (eval'.loop env condition d limit' last) := by
  induction limit generalizing limit' last with
  | zero => exact .spent _
  | succ limit ih =>
    obtain ⟨limit', rfl⟩ : ∃ n, limit' = n + 1 := ⟨limit' - 1, by omega⟩
    refine .bind (h condition env) fun test => ?_
    split
    · exact .bind (h d env) fun v => ih (by omega) v
    · exact .refl _

theorem callProc (h : Evaluator.Refines eval eval') (callee : String) (id : ClosureId)
    (args : List Value) :
    Action.Refines (eval.callProc callee id args) (eval'.callProc callee id args) := by
  refine .bind (.refl _) fun c => ?_
  cases c with
  | none => exact .refl _
  | some c =>
    simp only [Evaluator.callClosure]
    split
    · exact .bind (.refl _) fun frame => .bind (.refl _) fun _ => h.body frame c.body
    · exact .refl _

theorem call (h : Evaluator.Refines eval eval') (head : Datum) (callee : Value)
    (args : List Value) :
    Action.Refines (eval.call head callee args) (eval'.call head callee args) := by
  cases callee with
  | proc id => exact h.callProc head.text id args
  | _ => exact .refl _

theorem evalForm (h : Evaluator.Refines eval eval') {limit limit' : Nat} (hl : limit ≤ limit')
    (env : FrameId) (form : Form) :
    Action.Refines (evalForm limit eval env form) (evalForm limit' eval' env form) := by
  cases form with
  | number | str | reference | closure => exact .refl _
  | declare name value => exact .bind (h _ _) fun v => .refl _
  | assign name value => exact .bind (h _ _) fun v => .refl _
  | setProperty object name value =>
    exact .bind (h _ _) fun o => .bind (.refl _) fun frame => .bind (.refl _) fun name =>
      .bind (h _ _) fun v => .refl _
  | property object name => exact .bind (h _ _) fun o => .refl _
  | block ds => exact .bind (.refl _) fun frame => h.block frame .unit ds
  | branch condition consequence alternative => exact .bind (h _ _) fun test => h _ _
  | loop condition d => exact h.loop env condition d hl .unit
  | classDef name base d =>
    exact .bind (h _ _) fun b => .bind (.refl _) fun base => .bind (.refl _) fun frame =>
      .bind (h.body frame d) fun _ => .refl _
  | instantiate cls args =>
    refine .bind (h _ _) fun c => .bind (.refl _) fun cls => .bind (.refl _) fun frame =>
      .bind (h.values env args) fun vs => .bind (.refl _) fun constructor => ?_
    cases constructor with
    | proc id => exact .bind (h.callProc _ _ _) fun _ => .refl _
    | _ => exact .refl _
  | call head args =>
    exact .bind (h _ _) fun callee => .bind (h.values env args) fun vs => h.call head callee vs
  | expand d => exact h d env

theorem evalDatum (h : Evaluator.Refines eval eval') {limit limit' : Nat} (hl : limit ≤ limit') :
    Evaluator.Refines (evalDatum limit eval) (evalDatum limit' eval') := by
  intro d env
  unfold ScopeLisp.evalDatum
  split
  · exact h.evalForm hl env _
  · exact .refl _

end Evaluator.Refines

theorem eval_refines {fuel fuel' : Nat} (h : fuel ≤ fuel') :
    Evaluator.Refines (eval fuel) (eval fuel') := by
  induction fuel generalizing fuel' with
  | zero => exact fun d env => .spent _
  | succ fuel ih =>
    obtain ⟨fuel', rfl⟩ : ∃ n, fuel' = n + 1 := ⟨fuel' - 1, by omega⟩
    exact (ih (by omega)).evalDatum (by omega)

/-- More fuel does not change an outcome. -/
theorem eval_eq_of_le {fuel fuel' : Nat} (h : fuel ≤ fuel') {d : Datum} {env : FrameId} {s : State}
    (hd : eval fuel d env s ≠ .unfinished) : eval fuel' d env s = eval fuel d env s :=
  (eval_refines h d env s).resolve_left hd

end ScopeLisp

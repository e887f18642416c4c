import ScopeLisp.Eval.Fuel
import ScopeLisp.Proofs.Mention

/-!
# Clauses

A `switch` is evaluated as the nested `if`s that its sugar stands for, and what this comes to is
said here without them: the conditions are evaluated in turn until one of them is true
(`Evaluator.firstTrue`). The two come out alike for every number of clauses and in every state
(`eval_switch_iff`), though not with the same fuel, since each `if` is one level deeper than the one
around it. What is no well-formed `switch` is refused before any of this (`eval_of_not_isSwitch`).
-/

namespace ScopeLisp

namespace Datum

/-- A clause as it is written. -/
def ofClause (c : Datum × Datum) : Datum := .list [c.1, c.2]

/-- A `switch` as it is written. -/
def switch (clauses : List (Datum × Datum)) (alternative : Datum) : Datum :=
  .list (.symbol "switch" :: (clauses.map ofClause ++ [.list [.symbol "else", alternative]]))

/-- Has an `else` for its last clause and for no other. -/
def IsSwitch (d : Datum) : Prop :=
  ∃ clauses alternative, d = switch clauses alternative ∧ ∀ c ∈ clauses, c.1 ≠ .symbol "else"

/-- The nested `if`s for some clauses. -/
def nested (alternative : Datum) : List (Datum × Datum) → Datum
  | [] => alternative
  | (condition, result) :: rest =>
    .list [.symbol "if", condition, result, nested alternative rest]

/-! ## What the sugar stands for -/

variable {clauses : List (Datum × Datum)} {alternative d : Datum} {ds : List Datum}

theorem clause_ofClause (c : Datum × Datum) : clause (ofClause c) = .ok c := rfl

theorem ofClause_or_error (d : Datum) :
    (∃ c, d = ofClause c) ∨ ∃ fault, clause d = .error (.malformedForm "switch" fault) := by
  unfold clause
  split
  · next condition result => exact .inl ⟨(condition, result), rfl⟩
  · exact .inr ⟨_, rfl⟩

theorem nestClauses_last_of_ne {c : Datum × Datum} (hc : c.1 ≠ .symbol "else") :
    nestClauses [ofClause c] = .error (.malformedForm "switch" .lastNotElse) := by
  simp only [nestClauses, clause_ofClause, bind, Except.bind]
  split
  · exact absurd rfl hc
  · rfl

theorem nestClauses_cons_of_ne {c : Datum × Datum} (hc : c.1 ≠ .symbol "else") (hne : ds ≠ [])
    (h : nestClauses ds = .ok d) :
    nestClauses (ofClause c :: ds) = .ok (.list [.symbol "if", c.1, c.2, d]) := by
  simp only [nestClauses, h, clause_ofClause, bind, Except.bind]

theorem nestClauses_written (h : ∀ c ∈ clauses, c.1 ≠ .symbol "else") :
    nestClauses (clauses.map ofClause ++ [.list [.symbol "else", alternative]]) =
      .ok (nested alternative clauses) := by
  induction clauses with
  | nil => rfl
  | cons c clauses ih =>
    obtain ⟨hc, hclauses⟩ := List.forall_mem_cons.1 h
    exact nestClauses_cons_of_ne hc (by simp) (ih hclauses)

/-- What is not written like the clauses of a `switch` has a fault. -/
theorem written_or_error (ds : List Datum) :
    (∃ (clauses : List (Datum × Datum)) (alternative : Datum),
      ds = clauses.map ofClause ++ [.list [.symbol "else", alternative]] ∧
        ∀ c ∈ clauses, c.1 ≠ .symbol "else") ∨
    ∃ fault, nestClauses ds = .error (.malformedForm "switch" fault) := by
  fun_induction nestClauses ds with
  | case1 => exact .inr ⟨_, rfl⟩
  | case2 last =>
    rcases ofClause_or_error last with ⟨c, rfl⟩ | ⟨fault, hfault⟩
    · by_cases hc : c.1 = .symbol "else"
      · exact .inl ⟨[], c.2, by rw [← hc]; rfl, List.forall_mem_nil _⟩
      · exact .inr ⟨.lastNotElse, nestClauses_last_of_ne hc⟩
    · rw [hfault]
      exact .inr ⟨fault, rfl⟩
  | case3 first rest hne ih =>
    rcases ih with ⟨clauses, alternative, rfl, hclauses⟩ | ⟨fault, hfault⟩
    · rw [nestClauses_written hclauses]
      rcases ofClause_or_error first with ⟨c, rfl⟩ | ⟨fault, hfault⟩
      · by_cases hc : c.1 = .symbol "else"
        · obtain ⟨condition, result⟩ := c
          cases hc
          exact .inr ⟨.earlyElse, rfl⟩
        · exact .inl ⟨c :: clauses, alternative, rfl, List.forall_mem_cons.2 ⟨hc, hclauses⟩⟩
      · rw [hfault]
        exact .inr ⟨fault, rfl⟩
    · rw [hfault]
      exact .inr ⟨fault, rfl⟩

theorem not_isSwitch_of_error {e : RunError} (h : nestClauses ds = .error e) :
    ¬ IsSwitch (.list (.symbol "switch" :: ds)) := by
  rintro ⟨clauses, alternative, hd, hclauses⟩
  cases hd
  rw [nestClauses_written hclauses] at h
  cases h

theorem exists_fault_of_not_isSwitch (h : ¬ IsSwitch (.list (.symbol "switch" :: ds))) :
    ∃ fault, nestClauses ds = .error (.malformedForm "switch" fault) := by
  refine (written_or_error ds).resolve_left ?_
  rintro ⟨clauses, alternative, rfl, hclauses⟩
  exact h ⟨clauses, alternative, rfl, hclauses⟩

end Datum

/-! ## Evaluating clauses -/

/-- Evaluates the conditions of some clauses in turn until one is true, and then the result of that
clause; if none is true, the alternative. -/
def Evaluator.firstTrue (eval : Evaluator) (env : FrameId) (alternative : Datum) :
    List (Datum × Datum) → Action RunError Value
  | [] => eval alternative env
  | (condition, result) :: rest => do
    let test ← eval condition env
    if test.truth then eval result env
    else eval.firstTrue env alternative rest

open Datum

variable {clauses : List (Datum × Datum)} {alternative : Datum} {ds : List Datum} {fuel : Nat}
  {env : FrameId}

theorem ofDatum_switch (ds : List Datum) :
    Form.ofDatum (.list (.symbol "switch" :: ds)) = (nestClauses ds).map .expand := rfl

theorem eval_switch (h : ∀ c ∈ clauses, c.1 ≠ .symbol "else") :
    eval (fuel + 1) (switch clauses alternative) env =
      eval fuel (nested alternative clauses) env := by
  rw [switch, eval_succ, evalDatum, ofDatum_switch, nestClauses_written h]
  rfl

theorem eval_nested_cons (condition result : Datum) :
    eval (fuel + 1) (nested alternative ((condition, result) :: clauses)) env =
      eval fuel condition env >>= fun test =>
        eval fuel (if test.truth then result else nested alternative clauses) env := rfl

theorem eval_nested_refines {fuel' : Nat} (hfuel : fuel ≤ fuel') :
    (eval fuel (nested alternative clauses) env).Refines
      ((eval fuel').firstTrue env alternative clauses) := by
  induction clauses generalizing fuel with
  | nil => exact eval_refines hfuel alternative env
  | cons c clauses ih =>
    obtain ⟨condition, result⟩ := c
    cases fuel with
    | zero => exact .spent _
    | succ fuel =>
      have hle : fuel ≤ fuel' := Nat.le_of_succ_le hfuel
      rw [eval_nested_cons]
      refine .bind (eval_refines hle condition env) fun test => ?_
      split
      · exact eval_refines hle result env
      · exact ih hle

/-- Each `if` takes one unit of fuel more than its parts. -/
theorem firstTrue_refines :
    ((eval fuel).firstTrue env alternative clauses).Refines
      (eval (fuel + clauses.length) (nested alternative clauses) env) := by
  induction clauses with
  | nil => exact .refl _
  | cons c clauses ih =>
    obtain ⟨condition, result⟩ := c
    have hle : fuel ≤ fuel + clauses.length := Nat.le_add_right _ _
    rw [List.length_cons, ← Nat.add_assoc, eval_nested_cons]
    refine .bind (eval_refines hle condition env) fun test => ?_
    split
    · exact eval_refines hle result env
    · exact ih

theorem eval_switch_iff (h : ∀ c ∈ clauses, c.1 ≠ .symbol "else") {s : State}
    {o : Outcome RunError Value} (ho : o ≠ .unfinished) :
    (∃ fuel, eval fuel (switch clauses alternative) env s = o) ↔
      ∃ fuel, (eval fuel).firstTrue env alternative clauses s = o := by
  constructor
  · rintro ⟨fuel, rfl⟩
    cases fuel with
    | zero => exact absurd rfl ho
    | succ fuel =>
      rw [eval_switch h] at ho ⊢
      exact ⟨fuel, (eval_nested_refines (Nat.le_refl fuel) s).resolve_left ho⟩
  · rintro ⟨fuel, rfl⟩
    refine ⟨fuel + clauses.length + 1, ?_⟩
    rw [eval_switch h]
    exact (firstTrue_refines s).resolve_left ho

theorem eval_of_not_isSwitch (h : ¬ IsSwitch (.list (.symbol "switch" :: ds))) :
    ∃ fault, ∀ fuel env s, eval (fuel + 1) (.list (.symbol "switch" :: ds)) env s =
      .error (.malformedForm "switch" fault) s := by
  obtain ⟨fault, hfault⟩ := exists_fault_of_not_isSwitch h
  refine ⟨fault, fun fuel env s => ?_⟩
  rw [eval_succ, evalDatum, ofDatum_switch, hfault]
  rfl

/-- **A `switch` means its first clause with a true condition.** A well-formed `switch` comes out as
the evaluation of its clauses in turn does, with a value or an error, or not at all. A list headed
by `switch` that is not well formed is refused, and nothing is evaluated. -/
theorem Evaluator.firstTrue_of_switch :
    (∀ (clauses : List (Datum × Datum)) (alternative : Datum) (env : FrameId) (s : State)
      (o : Outcome RunError Value), (∀ c ∈ clauses, c.1 ≠ .symbol "else") → o ≠ .unfinished →
      ((∃ fuel, eval fuel (switch clauses alternative) env s = o) ↔
        ∃ fuel, (eval fuel).firstTrue env alternative clauses s = o)) ∧
    ∀ ds : List Datum, ¬ IsSwitch (.list (.symbol "switch" :: ds)) →
      ∃ fault, ∀ fuel env s, eval (fuel + 1) (.list (.symbol "switch" :: ds)) env s =
        .error (.malformedForm "switch" fault) s :=
  ⟨fun _ _ _ _ _ h ho => eval_switch_iff h ho, fun _ h => eval_of_not_isSwitch h⟩

/-- The names of the sugar are bound, and the conditions write to them: the first one is false, the
second one true. Then the same clauses with one more that is no list. -/
theorem Evaluator.firstTrue_of_switch_with_names_bound :
    let clauses : List (Datum × Datum) :=
      [(.list [.symbol "set", .symbol "if", .str ""], .symbol "else"),
       (.list [.symbol "set", .symbol "switch", .str "on"], .symbol "if")]
    let store : Store := (((({} : Store).addFrame .global none).2.define 0 "if" (.str "if")).define 0
      "switch" .null).define 0 "else" .null
    let t : State := ⟨(store.define 0 "if" (.str "")).define 0 "switch" (.str "on"), {}⟩
    let ds := clauses.map ofClause ++ [.symbol "else"]
    (∀ c ∈ clauses, c.1 ≠ .symbol "else") ∧
      (∃ fuel, eval fuel (switch clauses (.symbol "nope")) 0 ⟨store, {}⟩ = .value (.str "") t) ∧
      ¬ IsSwitch (.list (.symbol "switch" :: ds)) ∧
      ∃ fault, ∀ fuel env s, eval (fuel + 1) (.list (.symbol "switch" :: ds)) env s =
        .error (.malformedForm "switch" fault) s := by
  intro clauses store t ds
  have hclauses : ∀ c ∈ clauses, c.1 ≠ .symbol "else" := by decide
  have hrun : (eval 5).firstTrue 0 (.symbol "nope") clauses ⟨store, {}⟩ = .value (.str "") t := by
    decide +kernel
  have hds : ¬ IsSwitch (.list (.symbol "switch" :: ds)) := not_isSwitch_of_error rfl
  have hsame := Evaluator.firstTrue_of_switch.1 clauses (.symbol "nope") 0 ⟨store, {}⟩
    (.value (.str "") t) hclauses nofun
  exact ⟨hclauses, hsame.2 ⟨5, hrun⟩, hds, Evaluator.firstTrue_of_switch.2 ds hds⟩

end ScopeLisp

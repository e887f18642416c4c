import ScopeLisp.Proofs.Discipline

/-!
# Names that a program mentions

The names that evaluation looks up are symbols of the program, but for the `constructor` of a class.
What sugar is written with does not count: the symbols `if`, `var` and `lambda` stand at the heads
of forms there and are not looked up. `Datum.Code` says so of a datum, and `Datum.Code.mentions`
that it is handed on to all that the form of the datum evaluates or looks up.
-/

namespace ScopeLisp

theorem Except.exists_of_bind {ε α β : Type} {x : Except ε α} {f : α → Except ε β} {b : β}
    (h : (x >>= f) = .ok b) : ∃ a, x = .ok a ∧ f a = .ok b := by
  cases x with
  | error e => cases h
  | ok a => exact ⟨a, rfl, h⟩

namespace Datum

mutual

/-- The symbols in a datum, from left to right. -/
def symbols : Datum → List String
  | .symbol name => [name]
  | .list items => symbolsAll items
  | _ => []

def symbolsAll : List Datum → List String
  | [] => []
  | d :: ds => d.symbols ++ symbolsAll ds

end

theorem mem_symbolsAll {name : String} {ds : List Datum} :
    name ∈ symbolsAll ds ↔ ∃ d ∈ ds, name ∈ d.symbols := by
  induction ds with
  | nil => simp [symbolsAll]
  | cons d ds ih => simp [symbolsAll, ih]

variable {P : String → Prop}

/-- A program in which all symbols have `P`, with its sugar taken out of some places. -/
inductive Code (P : String → Prop) : Datum → Prop
  | written {d : Datum} (h : ∀ name ∈ d.symbols, P name) : Code P d
  | branch {condition consequence alternative : Datum} (hcondition : Code P condition)
      (hconsequence : Code P consequence) (halternative : Code P alternative) :
      Code P (.list [.symbol "if", condition, consequence, alternative])
  | declare {name value : Datum} (hvalue : Code P value) :
      Code P (.list [.symbol "var", name, value])
  | closure {params body : Datum} (hbody : Code P body) :
      Code P (.list [.symbol "lambda", params, body])

theorem Code.items {items : List Datum} (h : ∀ name ∈ symbolsAll items, P name) :
    ∀ d ∈ items, Code P d :=
  fun d hd => .written fun name hname => h name (mem_symbolsAll.2 ⟨d, hd, hname⟩)

theorem code_of_clause {d condition result : Datum} (hd : ∀ name ∈ d.symbols, P name)
    (h : clause d = .ok (condition, result)) : Code P condition ∧ Code P result := by
  unfold clause at h
  split at h
  · cases h
    exact ⟨Code.items hd _ (by simp), Code.items hd _ (by simp)⟩
  · cases h

theorem code_of_nestClauses {clauses : List Datum} {d : Datum}
    (hclauses : ∀ name ∈ symbolsAll clauses, P name) (h : nestClauses clauses = .ok d) :
    Code P d := by
  fun_induction nestClauses clauses generalizing d with
  | case1 => cases h
  | case2 last =>
    have hlast : ∀ name ∈ last.symbols, P name := fun name hname =>
      hclauses name (mem_symbolsAll.2 ⟨last, List.mem_singleton_self last, hname⟩)
    obtain ⟨⟨condition, result⟩, hclause, h⟩ := Except.exists_of_bind h
    split at h
    · next heq =>
      cases heq
      cases h
      exact (code_of_clause hlast hclause).2
    · cases h
  | case3 first rest _ ih =>
    have hfirst : ∀ name ∈ first.symbols, P name := fun name hname =>
      hclauses name (mem_symbolsAll.2 ⟨first, List.mem_cons_self, hname⟩)
    have hrest : ∀ name ∈ symbolsAll rest, P name := fun name hname =>
      hclauses name (List.mem_append_right _ hname)
    obtain ⟨alternative, halternative, h⟩ := Except.exists_of_bind h
    obtain ⟨⟨condition, result⟩, hclause, h⟩ := Except.exists_of_bind h
    obtain ⟨hcondition, hresult⟩ := code_of_clause hfirst hclause
    split at h
    · cases h
    · next heq =>
      cases heq
      cases h
      exact .branch hcondition hresult (ih hrest halternative)

theorem code_of_expandDef {operands : List Datum} {d : Datum}
    (hoperands : ∀ name ∈ symbolsAll operands, P name)
    (h : expandDef (.list (.symbol "def" :: operands)) = .ok d) : Code P d := by
  unfold expandDef at h
  split at h
  · next heq =>
    cases heq
    cases h
    exact .declare (.closure (Code.items hoperands _ (by simp)))
  · cases h

end Datum

/-- The names that a form looks up itself. -/
def Form.lookups : Form → List String
  | .reference name | .assign name _ => [name]
  | .property _ (.symbol name) => [name]
  | _ => []

/-- All that the form evaluates or looks up has `P`. -/
structure Form.Mentions (P : String → Prop) (form : Form) : Prop where
  parts : ∀ d ∈ form.parts, d.Code P
  lookups : ∀ name ∈ form.lookups, P name

theorem Form.Mentions.of_lookups_eq_nil {P : String → Prop} {form : Form} (h : form.lookups = [])
    (hparts : ∀ d ∈ form.parts, d.Code P) : form.Mentions P := by
  refine ⟨hparts, fun name hname => ?_⟩
  rw [h] at hname
  cases hname

namespace Form

open Datum

variable {P : String → Prop}

theorem eq_symbol_of_nameIn {form name : String} {d : Datum} (h : nameIn form d = .ok name) :
    d = .symbol name := by
  cases d <;> cases h
  rfl

theorem mentions_of_ofTag {tag : String} {operands : List Datum} {form : Form} (htag : P tag)
    (hoperands : ∀ name ∈ symbolsAll operands, P name) (h : ofTag tag operands = .ok form) :
    form.Mentions P := by
  have hcode := Code.items hoperands
  unfold ofTag at h
  split at h
  -- `var`
  · split at h
    · obtain ⟨name, -, h⟩ := Except.exists_of_bind h
      cases h
      exact .of_lookups_eq_nil rfl fun d hd => hcode d (by simp_all [parts])
    · cases h
  -- `set`
  · split at h
    · split at h
      · next value _ object name =>
        cases h
        have hobject : Code P object := .written fun n hn =>
          hoperands n (by simp [symbolsAll, symbols, hn])
        refine .of_lookups_eq_nil rfl fun d hd => ?_
        rcases List.mem_cons.1 hd with rfl | hd
        · exact hobject
        · exact hcode d (List.mem_cons_of_mem _ hd)
      · cases h
    · obtain ⟨name, hname, h⟩ := Except.exists_of_bind h
      cases h
      have hsymbol := eq_symbol_of_nameIn hname
      refine ⟨fun d hd => hcode d (List.mem_cons_of_mem _ hd), fun n hn => ?_⟩
      rw [lookups, List.mem_singleton] at hn
      exact hoperands n (by simp [symbolsAll, hsymbol, symbols, hn])
    · cases h
  -- `prop`
  · split at h
    · next object name =>
      cases h
      refine ⟨fun d hd => hcode d (by simp_all [parts]), fun n hn => hoperands n ?_⟩
      cases name with
      | symbol name =>
        rw [lookups, List.mem_singleton] at hn
        simp [symbolsAll, symbols, hn]
      | _ => cases hn
    · cases h
  -- `begin`
  · cases h
    exact .of_lookups_eq_nil rfl hcode
  -- `if`
  · split at h <;> cases h
    exact .of_lookups_eq_nil rfl hcode
  -- `while`
  · split at h <;> cases h
    exact .of_lookups_eq_nil rfl hcode
  -- `lambda`
  · split at h
    · obtain ⟨names, -, h⟩ := Except.exists_of_bind h
      cases h
      exact .of_lookups_eq_nil rfl fun d hd => hcode d (by simp_all [parts])
    · cases h
    · cases h
  -- `class`
  · split at h
    · obtain ⟨name, -, h⟩ := Except.exists_of_bind h
      cases h
      exact .of_lookups_eq_nil rfl fun d hd => hcode d (List.mem_cons_of_mem _ hd)
    · cases h
  -- `new`
  · split at h <;> cases h
    exact .of_lookups_eq_nil rfl hcode
  -- `switch`
  · cases hd : expandSwitch (.list (.symbol "switch" :: operands)) with
    | error e =>
      rw [hd] at h
      cases h
    | ok d =>
      rw [hd] at h
      cases h
      refine .of_lookups_eq_nil rfl fun d' hd' => ?_
      rw [List.mem_singleton.1 hd']
      exact code_of_nestClauses hoperands hd
  -- `def`
  · cases hd : expandDef (.list (.symbol "def" :: operands)) with
    | error e =>
      rw [hd] at h
      cases h
    | ok d =>
      rw [hd] at h
      cases h
      refine .of_lookups_eq_nil rfl fun d' hd' => ?_
      rw [List.mem_singleton.1 hd']
      exact code_of_expandDef hoperands hd
  -- a call
  · cases h
    refine .of_lookups_eq_nil rfl fun d hd => ?_
    rcases List.mem_cons.1 hd with rfl | hd
    · exact .written fun n hn => by
        rw [symbols, List.mem_singleton] at hn
        exact hn ▸ htag
    · exact hcode d hd

end Form

theorem Datum.Code.mentions {P : String → Prop} {d : Datum} {form : Form} (h : d.Code P)
    (hform : Form.ofDatum d = .ok form) : form.Mentions P := by
  cases h with
  | branch hcondition hconsequence halternative =>
    cases hform
    refine .of_lookups_eq_nil rfl fun d hd => ?_
    simp only [Form.parts, List.mem_cons, List.not_mem_nil, or_false] at hd
    rcases hd with rfl | rfl | rfl <;> assumption
  | @declare name value hvalue =>
    obtain ⟨name, -, h⟩ := Except.exists_of_bind hform
    cases h
    exact .of_lookups_eq_nil rfl fun d hd => List.mem_singleton.1 hd ▸ hvalue
  | @closure params body hbody =>
    cases params with
    | list params =>
      obtain ⟨names, -, h⟩ := Except.exists_of_bind hform
      cases h
      exact .of_lookups_eq_nil rfl fun d hd => List.mem_singleton.1 hd ▸ hbody
    | _ => cases hform
  | written h =>
    unfold Form.ofDatum at hform
    split at hform
    · cases hform
      exact .of_lookups_eq_nil rfl fun d hd => absurd hd List.not_mem_nil
    · cases hform
      exact .of_lookups_eq_nil rfl fun d hd => absurd hd List.not_mem_nil
    · cases hform
      exact ⟨fun d hd => absurd hd List.not_mem_nil, h⟩
    · cases hform
    · next tag operands =>
      refine Form.mentions_of_ofTag (h tag ?_) (fun name hname => h name ?_) hform
      · simp [symbols, symbolsAll]
      · simp [symbols, symbolsAll, hname]
    · cases hform
      exact .of_lookups_eq_nil rfl (Datum.Code.items h)

end ScopeLisp

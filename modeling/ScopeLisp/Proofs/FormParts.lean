import ScopeLisp.Proofs.Mention

/-!
# Parts of forms

What the form of a datum evaluates is inside of the datum, or is what its sugar stands for
(`Form.offers_of_ofDatum`). So a property that lists share with their items is handed on to the parts,
if the symbols that sugar is written with have it (`Datum.Hereditary.parts`). Closures are made by one
form only (`Form.eq_lambda_of_ofTag`).
-/

namespace ScopeLisp

/-- What a form can evaluate as a part of itself: an item, an item of an item, or what sugar stands
for. -/
inductive Datum.Offers : Datum → Datum → Prop
  | item {items : List Datum} {p : Datum} (h : p ∈ items) : Offers (.list items) p
  | inner {items inner : List Datum} {p : Datum} (hinner : .list inner ∈ items) (h : p ∈ inner) :
      Offers (.list items) p
  | switch {clauses : List Datum} {p : Datum} (h : nestClauses clauses = .ok p) :
      Offers (.list (.symbol "switch" :: clauses)) p
  | definition {items : List Datum} {p : Datum} (h : expandDef (.list items) = .ok p) :
      Offers (.list items) p

namespace Form

theorem offers_of_ofTag {tag : String} {operands : List Datum} {form : Form} {p : Datum}
    (h : ofTag tag operands = .ok form) (hp : p ∈ form.parts) :
    (Datum.list (.symbol tag :: operands)).Offers p := by
  have operand : p ∈ operands → (Datum.list (.symbol tag :: operands)).Offers p :=
    fun h => .item (List.mem_cons_of_mem _ h)
  unfold ofTag at h
  split at h
  -- `var`
  · split at h
    · obtain ⟨name, -, h⟩ := Except.exists_of_bind h
      cases h
      exact operand (List.mem_cons_of_mem _ hp)
    · cases h
  -- `set`
  · split at h
    · split at h
      · next value _ object name =>
        cases h
        rcases List.mem_cons.1 hp with rfl | hp
        · exact .inner (List.mem_cons_of_mem _ List.mem_cons_self) (by simp)
        · exact operand (List.mem_cons_of_mem _ hp)
      · cases h
    · obtain ⟨name, -, h⟩ := Except.exists_of_bind h
      cases h
      exact operand (List.mem_cons_of_mem _ hp)
    · cases h
  -- `prop`
  · split at h
    · cases h
      exact operand (List.mem_singleton.1 hp ▸ List.mem_cons_self)
    · cases h
  -- `begin`
  · cases h
    exact operand hp
  -- `if`
  · split at h <;> cases h
    exact operand hp
  -- `while`
  · split at h <;> cases h
    exact operand hp
  -- `lambda`
  · split at h
    · obtain ⟨names, -, h⟩ := Except.exists_of_bind h
      cases h
      exact operand (List.mem_cons_of_mem _ hp)
    · cases h
    · cases h
  -- `class`
  · split at h
    · obtain ⟨name, -, h⟩ := Except.exists_of_bind h
      cases h
      exact operand (List.mem_cons_of_mem _ hp)
    · cases h
  -- `new`
  · split at h <;> cases h
    exact operand hp
  -- `switch`
  · cases hd : Datum.expandSwitch (.list (.symbol "switch" :: operands)) with
    | error e =>
      rw [hd] at h
      cases h
    | ok d =>
      rw [hd] at h
      cases h
      rw [List.mem_singleton.1 hp]
      exact .switch hd
  -- `def`
  · cases hd : Datum.expandDef (.list (.symbol "def" :: operands)) with
    | error e =>
      rw [hd] at h
      cases h
    | ok d =>
      rw [hd] at h
      cases h
      rw [List.mem_singleton.1 hp]
      exact .definition hd
  -- a call
  · cases h
    exact .item hp

theorem offers_of_ofDatum {d : Datum} {form : Form} {p : Datum} (h : ofDatum d = .ok form)
    (hp : p ∈ form.parts) : d.Offers p := by
  unfold ofDatum at h
  split at h
  · cases h
    cases hp
  · cases h
    cases hp
  · cases h
    cases hp
  · cases h
  · exact offers_of_ofTag h hp
  · cases h
    exact .item hp

end Form

/-- Holds of a list if it holds of all its items, and the other way around; and holds of the symbols
that sugar is written with. -/
structure Datum.Hereditary (P : Datum → Prop) : Prop where
  item : ∀ {items d}, P (.list items) → d ∈ items → P d
  list : ∀ {items}, (∀ d ∈ items, P d) → P (.list items)
  keyword : ∀ tag ∈ ["if", "var", "lambda"], P (.symbol tag)

namespace Datum.Hereditary

variable {P : Datum → Prop}

theorem clause (hP : Hereditary P) {d condition result : Datum} (hd : P d)
    (h : Datum.clause d = .ok (condition, result)) : P condition ∧ P result := by
  unfold Datum.clause at h
  split at h
  · cases h
    exact ⟨hP.item hd (by simp), hP.item hd (by simp)⟩
  · cases h

theorem nestClauses (hP : Hereditary P) {clauses : List Datum} {d : Datum}
    (hclauses : ∀ c ∈ clauses, P c) (h : Datum.nestClauses clauses = .ok d) : P d := by
  fun_induction Datum.nestClauses clauses generalizing d with
  | case1 => cases h
  | case2 last =>
    obtain ⟨⟨condition, result⟩, hclause, h⟩ := Except.exists_of_bind h
    split at h
    · next heq =>
      cases heq
      cases h
      exact (hP.clause (hclauses last List.mem_cons_self) hclause).2
    · cases h
  | case3 first rest _ ih =>
    obtain ⟨alternative, halternative, h⟩ := Except.exists_of_bind h
    obtain ⟨⟨condition, result⟩, hclause, h⟩ := Except.exists_of_bind h
    obtain ⟨hcondition, hresult⟩ := hP.clause (hclauses first List.mem_cons_self) hclause
    have hrest : P alternative :=
      ih (fun c hc => hclauses c (List.mem_cons_of_mem _ hc)) halternative
    split at h
    · cases h
    · next heq =>
      cases heq
      cases h
      refine hP.list (List.forall_mem_cons.2 ⟨hP.keyword "if" (by decide), ?_⟩)
      simp [hcondition, hresult, hrest]

theorem expandDef (hP : Hereditary P) {items : List Datum} {d : Datum}
    (hitems : ∀ c ∈ items, P c) (h : Datum.expandDef (.list items) = .ok d) : P d := by
  unfold Datum.expandDef at h
  split at h
  · next name params body heq =>
    cases heq
    cases h
    have hlambda : P (.list [.symbol "lambda", params, body]) := by
      refine hP.list (List.forall_mem_cons.2 ⟨hP.keyword "lambda" (by decide), ?_⟩)
      simp [hitems params (by simp), hitems body (by simp)]
    refine hP.list (List.forall_mem_cons.2 ⟨hP.keyword "var" (by decide), ?_⟩)
    simp [hitems name (by simp), hlambda]
  · cases h

/-- What holds of a datum holds of all that its form evaluates. -/
theorem parts (hP : Hereditary P) {d : Datum} {form : Form} (hd : P d)
    (h : Form.ofDatum d = .ok form) : ∀ p ∈ form.parts, P p := by
  intro p hp
  cases Form.offers_of_ofDatum h hp with
  | item hp => exact hP.item hd hp
  | inner hinner hp => exact hP.item (hP.item hd hinner) hp
  | switch h => exact hP.nestClauses (fun c hc => hP.item hd (List.mem_cons_of_mem _ hc)) h
  | definition h => exact hP.expandDef (fun c hc => hP.item hd hc) h

end Datum.Hereditary

/-! ## Closures -/

theorem Form.mapM_nameIn_symbol (form : String) (names : List String) :
    (names.map Datum.symbol).mapM (nameIn form) = .ok names := by
  induction names with
  | nil => rfl
  | cons name names ih =>
    rw [List.map_cons, List.mapM_cons, ih]
    rfl

theorem Form.eq_map_of_mapM_nameIn {form : String} {ds : List Datum} {names : List String}
    (h : ds.mapM (nameIn form) = .ok names) : ds = names.map .symbol := by
  induction ds generalizing names with
  | nil =>
    cases h
    rfl
  | cons d ds ih =>
    rw [List.mapM_cons] at h
    obtain ⟨name, hname, h⟩ := Except.exists_of_bind h
    obtain ⟨rest, hrest, h⟩ := Except.exists_of_bind h
    cases h
    rw [eq_symbol_of_nameIn hname, ih hrest, List.map_cons]

/-- Only `lambda` makes closures. -/
theorem Form.eq_lambda_of_ofTag {tag : String} {operands : List Datum} {params : List String}
    {body : Datum} (h : ofTag tag operands = .ok (.closure params body)) :
    tag = "lambda" ∧ operands = [.list (params.map .symbol), body] := by
  unfold ofTag at h
  split at h
  -- `var`
  · split at h
    · obtain ⟨name, -, h⟩ := Except.exists_of_bind h
      cases h
    · cases h
  -- `set`
  · split at h
    · split at h <;> cases h
    · obtain ⟨name, -, h⟩ := Except.exists_of_bind h
      cases h
    · cases h
  -- `prop`
  · split at h <;> cases h
  -- `begin`
  · cases h
  -- `if`
  · split at h <;> cases h
  -- `while`
  · split at h <;> cases h
  -- `lambda`
  · split at h
    · obtain ⟨names, hnames, h⟩ := Except.exists_of_bind h
      cases h
      rw [eq_map_of_mapM_nameIn hnames]
      exact ⟨rfl, rfl⟩
    · cases h
    · cases h
  -- `class`
  · split at h
    · obtain ⟨name, -, h⟩ := Except.exists_of_bind h
      cases h
    · cases h
  -- `new`
  · split at h <;> cases h
  -- `switch`
  · cases hd : Datum.expandSwitch (.list (.symbol "switch" :: operands)) <;> rw [hd] at h <;> cases h
  -- `def`
  · cases hd : Datum.expandDef (.list (.symbol "def" :: operands)) <;> rw [hd] at h <;> cases h
  -- a call
  · cases h

end ScopeLisp

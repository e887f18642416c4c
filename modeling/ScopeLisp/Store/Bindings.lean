import ScopeLisp.Value

/-!
# Bindings

The names that a frame binds and their values, in increasing order of the names. Main statements:
binding a name changes the value of that name and of no other (`get?_insert`), and keeps the order
(`pairwise_names_insert`).
-/

namespace ScopeLisp

/-- Names with their values. `insert` keeps the names in increasing order of their code points. -/
structure Bindings where
  entries : List (String × Value) := []
deriving DecidableEq, Inhabited, Repr

namespace Bindings

def get? (b : Bindings) (name : String) : Option Value := b.entries.lookup name

/-- Overwrites the entry of `name`, or adds one in front of the first entry of a greater name. -/
def insertEntry (name : String) (v : Value) : List (String × Value) → List (String × Value)
  | [] => [(name, v)]
  | e :: es =>
    if e.1 = name then (name, v) :: es
    else if name < e.1 then (name, v) :: e :: es
    else e :: insertEntry name v es

def insert (b : Bindings) (name : String) (v : Value) : Bindings :=
  ⟨insertEntry name v b.entries⟩

def owns (b : Bindings) (name : String) : Bool := (b.get? name).isSome

/-- The bound names, in increasing order. -/
def names (b : Bindings) : List String := b.entries.map (·.1)

theorem lookup_insertEntry (name other : String) (v : Value) (es : List (String × Value)) :
    (insertEntry name v es).lookup other = if other = name then some v else es.lookup other := by
  have ne : ∀ {x y : String}, x ≠ y → (x == y) = false := fun h => by simpa using h
  induction es with
  | nil => by_cases h : other = name <;> simp [insertEntry, List.lookup_cons, h, ne]
  | cons e es ih =>
    obtain ⟨key, w⟩ := e
    by_cases hk : key = name
    · subst hk
      by_cases h : other = key <;> simp [insertEntry, List.lookup_cons, h, ne]
    · by_cases hl : name < key
      · by_cases h : other = name <;> simp [insertEntry, hk, hl, List.lookup_cons, h, ne]
      · by_cases h : other = key
        · subst h; simp [insertEntry, hk, hl]
        · simp [insertEntry, hk, hl, List.lookup_cons, ne h, ih]

@[simp] theorem get?_insert (b : Bindings) (name other : String) (v : Value) :
    (b.insert name v).get? other = if other = name then some v else b.get? other :=
  lookup_insertEntry name other v b.entries

@[simp] theorem get?_empty (name : String) : ({} : Bindings).get? name = none := rfl

theorem owns_insert (b : Bindings) (name other : String) (v : Value) :
    (b.insert name v).owns other = (other = name || b.owns other) := by
  by_cases h : other = name <;> simp [owns, h]

theorem mem_names {b : Bindings} {name : String} : name ∈ b.names ↔ b.owns name = true := by
  obtain ⟨es⟩ := b
  simp only [names, owns, get?]
  induction es with
  | nil => simp
  | cons e es ih =>
    obtain ⟨key, w⟩ := e
    by_cases h : name = key
    · subst h; simp
    · have : (name == key) = false := by simpa using h
      simp [List.lookup_cons, this, h, ih]

theorem mem_keys_insertEntry {name x : String} {v : Value} {es : List (String × Value)} :
    x ∈ (insertEntry name v es).map (·.1) ↔ x = name ∨ x ∈ es.map (·.1) := by
  have := @mem_names ⟨insertEntry name v es⟩ x
  have h := @mem_names ⟨es⟩ x
  simp only [names] at this h
  rw [this, h]
  simp [owns, get?, lookup_insertEntry]
  by_cases hx : x = name <;> simp [hx]

theorem keys_insertEntry_congr (name : String) (v w : Value) {es es' : List (String × Value)}
    (h : es.map (·.1) = es'.map (·.1)) :
    (insertEntry name v es).map (·.1) = (insertEntry name w es').map (·.1) := by
  induction es generalizing es' with
  | nil =>
    rw [List.map_nil, eq_comm, List.map_eq_nil_iff] at h
    subst h
    rfl
  | cons e es ih =>
    cases es' with
    | nil => cases h
    | cons e' es' =>
      rw [List.map_cons, List.map_cons, List.cons.injEq] at h
      obtain ⟨hkey, hrest⟩ := h
      rw [insertEntry, insertEntry, ← hkey]
      split
      · simp [hrest]
      · split
        · simp [hkey, hrest]
        · simp [hkey, ih hrest]

/-- The names after a binding depend only on the names before. -/
theorem names_insert_congr {b b' : Bindings} (h : b.names = b'.names) (name : String)
    (v w : Value) : (b.insert name v).names = (b'.insert name w).names :=
  keys_insertEntry_congr name v w h

/-- Binding a name keeps the names in order, and so no name is listed twice. -/
theorem pairwise_names_insert {b : Bindings} (h : b.names.Pairwise (· < ·)) (name : String)
    (v : Value) : (b.insert name v).names.Pairwise (· < ·) := by
  obtain ⟨es⟩ := b
  simp only [names, insert] at h ⊢
  induction es with
  | nil => simp [insertEntry]
  | cons e es ih =>
    rw [List.map_cons, List.pairwise_cons] at h
    by_cases hk : e.1 = name
    · rw [insertEntry, if_pos hk, List.map_cons, List.pairwise_cons]
      exact ⟨hk ▸ h.1, h.2⟩
    · by_cases hl : name < e.1
      · rw [insertEntry, if_neg hk, if_pos hl, List.map_cons, List.pairwise_cons, List.map_cons,
          List.pairwise_cons]
        refine ⟨fun x hx => ?_, h⟩
        rcases List.mem_cons.1 hx with rfl | hx
        · exact hl
        · exact String.lt_trans hl (h.1 x hx)
      · rw [insertEntry, if_neg hk, if_neg hl, List.map_cons, List.pairwise_cons]
        refine ⟨fun x hx => ?_, ih h.2⟩
        rcases mem_keys_insertEntry.1 hx with rfl | hx
        · exact Decidable.byContradiction fun hn =>
            hk (String.le_antisymm (String.not_lt.1 hl) (String.not_lt.1 hn))
        · exact h.1 x hx

end Bindings

end ScopeLisp

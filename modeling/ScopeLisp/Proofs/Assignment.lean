import ScopeLisp.Proofs.Hygiene

/-!
# Assignment

Stores only grow, so no frame loses a name, and a name that means something from a frame keeps meaning
something from there (`Store.Grows.retains`). What it means can change: a nearer frame can come to bind
it too. So `set` looks for the binding after its value is known, and overwrites the one that is nearest
then (`Store.Overwritten`). It adds no name anywhere, and if there is no binding it does nothing at all.
-/

namespace ScopeLisp

namespace Store

variable {s t : Store} {f g : FrameId} {name : String}

/-- The name means something from the frame. -/
def Resolves (s : Store) (f : FrameId) (name : String) : Prop := ∃ v, s.lookup? f name = some v

theorem resolves_iff : s.Resolves f name ↔ ∃ g ∈ s.chain f, name ∈ s.names g := by
  rw [Resolves, ← Option.isSome_iff_exists, lookup?, List.findSome?_isSome_iff]
  simp only [names, Bindings.mem_names]
  rfl

theorem exists_owner?_iff : (∃ g, s.owner? f name = some g) ↔ s.Resolves f name := by
  rw [resolves_iff, ← Option.isSome_iff_exists, owner?, List.find?_isSome]
  simp only [names, Bindings.mem_names]

theorem owner?_eq_none (h : ¬ s.Resolves f name) : s.owner? f name = none := by
  rw [← exists_owner?_iff] at h
  cases howner : s.owner? f name with
  | none => rfl
  | some g => exact absurd ⟨g, howner⟩ h

/-- No name is lost from `s` to `t`: frames keep their names, and names keep a meaning. -/
structure Retains (s t : Store) : Prop where
  names : ∀ f name, name ∈ s.names f → name ∈ t.names f
  resolves : ∀ f name, s.Resolves f name → t.Resolves f name

namespace Grows

theorem mem_names (h : s.Grows t) (hname : name ∈ s.names f) : name ∈ t.names f := by
  induction h with
  | refl => exact hname
  | @define t _ g other v ih =>
    by_cases hg : g < t.frames.size
    · rw [Store.names, own_define _ hg]
      split
      · rw [Bindings.mem_names, Bindings.owns_insert, Bindings.mem_names.1 ih, Bool.or_true]
      · exact ih
    · rw [Store.names, own_define_of_le _ (Nat.not_lt.1 hg)]
      exact ih
  | addFrame _ role parent ih =>
    rw [Store.names, own_addFrame]
    exact ih
  | addClosure _ c ih => exact ih

/-- A chain can only get longer, and only if it was cut short or led to a frame that was not there. -/
theorem chainUpTo_prefix (h : s.Grows t) {limit limit' : Nat} (hlimit : limit ≤ limit')
    (f : FrameId) : s.chainUpTo limit f <+: t.chainUpTo limit' f := by
  induction limit generalizing limit' f with
  | zero => exact List.nil_prefix
  | succ limit ih =>
    obtain ⟨limit', rfl⟩ : ∃ n, limit' = n + 1 := ⟨limit' - 1, by omega⟩
    cases hf : s.frames[f]? with
    | none =>
      rw [chainUpTo, hf]
      exact List.nil_prefix
    | some x =>
      obtain ⟨vars, hvars⟩ := h.frame hf
      rw [chainUpTo, chainUpTo, hf, hvars]
      refine List.cons_prefix_cons.2 ⟨rfl, ?_⟩
      cases x.parent with
      | none => exact List.nil_prefix
      | some p => exact ih (by omega) p

theorem retains (h : s.Grows t) : s.Retains t where
  names _ _ hname := h.mem_names hname
  resolves f name hs := by
    obtain ⟨g, hg, hname⟩ := resolves_iff.1 hs
    exact resolves_iff.2 ⟨g, (h.chainUpTo_prefix h.size_le f).subset hg, h.mem_names hname⟩

end Grows

/-- However an evaluation ends, the store has only grown. -/
theorem grows_of_ends {fuel : Nat} {d : Datum} {env : FrameId} {s t : State}
    {r : Except RunError Value} (h : (eval fuel d env s).result? = some (r, t)) :
    s.store.Grows t.store := by
  have hkeeps := Discipline.eval_keeps _ fuel s.store d env (Discipline.good_bindsIn_all s.store)
    trivial trivial
  exact (hkeeps.of_result? h).1.grows

/-- `t` differs from `s` in the value of one name in one frame, which bound that name before. -/
structure Overwritten (s t : Store) (f : FrameId) (name : String) (v : Value) : Prop where
  bound : name ∈ s.names f
  get? : ∀ g other, (t.own g).get? other =
    if g = f ∧ other = name then some v else (s.own g).get? other
  names : ∀ g, s.SameNames t g
  parent? : ∀ g, t.parent? g = s.parent? g
  size : t.frames.size = s.frames.size
  closures : t.closures = s.closures

theorem overwritten_define (h : (s.own f).owns name = true) (v : Value) :
    s.Overwritten (s.define f name v) f name v where
  bound := Bindings.mem_names.2 h
  get? g other := by
    obtain ⟨w, hw⟩ := owns_iff.1 h
    rw [own_define s (lt_of_get? hw)]
    by_cases hg : g = f
    · simp only [hg, if_true, true_and, Bindings.get?_insert]
    · simp only [hg, if_false, false_and]
  names _ := .define_of_owns h v
  parent? g := s.parent?_define f name v g
  size := s.size_define f name v
  closures := s.closures_define f name v

end Store

/-- What `set` does once its value is known. -/
theorem eval_set {fuel : Nat} {name : String} {e : Datum} {env : FrameId} {s t : State} {v : Value}
    (h : eval fuel e env s = .value v t) :
    eval (fuel + 1) (.list [.symbol "set", .symbol name, e]) env s =
      match t.store.owner? env name with
      | some f => .value v ⟨t.store.define f name v, t.console⟩
      | none => .error (.notDefined name) t := by
  have hform : Form.ofDatum (.list [.symbol "set", .symbol name, e]) = .ok (.assign name e) := rfl
  rw [eval_succ, evalDatum, hform]
  simp only [evalForm, Action.bind_apply, h, Action.assign]
  cases t.store.owner? env name <;> rfl

/-- **Names are never lost, and `set` never makes one.** However an evaluation ends, all frames have
the names that they had, and all names that meant something still do. A `set` of a name whose value
has been evaluated overwrites the binding that is then the nearest and nothing else; if there is
none, it fails and changes nothing. -/
theorem Store.retained_of_ends :
    (∀ (fuel : Nat) (d : Datum) (env : FrameId) (s t : State) (r : Except RunError Value),
      (eval fuel d env s).result? = some (r, t) → s.store.Retains t.store) ∧
    ∀ (fuel : Nat) (name : String) (e : Datum) (env : FrameId) (s t : State) (v : Value),
      eval fuel e env s = .value v t →
      (t.store.Resolves env name → ∃ f u, t.store.owner? env name = some f ∧
        t.store.Overwritten u f name v ∧
        eval (fuel + 1) (.list [.symbol "set", .symbol name, e]) env s =
          .value v ⟨u, t.console⟩) ∧
      (¬ t.store.Resolves env name →
        eval (fuel + 1) (.list [.symbol "set", .symbol name, e]) env s =
          .error (.notDefined name) t) := by
  refine ⟨fun fuel d env s t r hrun => (grows_of_ends hrun).retains, ?_⟩
  intro fuel name e env s t v he
  rw [eval_set he]
  refine ⟨fun hresolves => ?_, fun hresolves => ?_⟩
  · obtain ⟨f, hf⟩ := exists_owner?_iff.2 hresolves
    refine ⟨f, _, hf, overwritten_define (mem_chain_of_owner? hf).2 v, ?_⟩
    rw [hf]
  · rw [owner?_eq_none hresolves]

/-- The value of a `set` declares the name in a nearer frame, and that binding is overwritten. -/
theorem Store.retained_of_nearer_declaration :
    let e : Datum := .list [.symbol "var", .symbol "x", .str "near"]
    let s : State :=
      ⟨((({} : Store).addFrame .global none).2.addFrame .block (some 0)).2.define 0 "x" .null, {}⟩
    ∃ t, s.store.owner? 1 "x" = some 0 ∧ t.store.owner? 1 "x" = some 1 ∧
      eval 5 e 1 s = .value (.str "near") t ∧ s.store.Retains t.store ∧
      (∃ f u, t.store.owner? 1 "x" = some f ∧ t.store.Overwritten u f "x" (.str "near") ∧
        eval 6 (.list [.symbol "set", .symbol "x", e]) 1 s =
          .value (.str "near") ⟨u, t.console⟩) ∧
      eval 6 (.list [.symbol "set", .symbol "y", e]) 1 s = .error (.notDefined "y") t := by
  intro e s
  let t : State := ⟨s.store.define 1 "x" (.str "near"), {}⟩
  have hrun : eval 5 e 1 s = .value (.str "near") t := by decide +kernel
  have hfar : s.store.owner? 1 "x" = some 0 := by decide +kernel
  have hnear : t.store.owner? 1 "x" = some 1 := by decide +kernel
  have hmissing : t.store.owner? 1 "y" = none := by decide +kernel
  have hresult : (eval 5 e 1 s).result? = some (.ok (.str "near"), t) := by rw [hrun]; rfl
  have hretains : s.store.Retains t.store := Store.retained_of_ends.1 5 e 1 s t _ hresult
  have hx : t.store.Resolves 1 "x" := exists_owner?_iff.1 ⟨1, hnear⟩
  have hy : ¬ t.store.Resolves 1 "y" := fun h => by
    obtain ⟨f, hf⟩ := exists_owner?_iff.2 h
    rw [hmissing] at hf
    cases hf
  exact ⟨t, hfar, hnear, hrun, hretains, (Store.retained_of_ends.2 5 "x" e 1 s t _ hrun).1 hx,
    (Store.retained_of_ends.2 5 "y" e 1 s t _ hrun).2 hy⟩

end ScopeLisp

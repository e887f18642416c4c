import ScopeLisp.Proofs.Session

/-!
# What a frame can reach

`Store.Reachable` follows links, objects and closures from some frames on. Evaluation in a frame stays
among the frames that it can reach from there and the frames that it adds: it writes no others, and it
makes no others reachable. What can be reached changes all the time, so the law is stated for a fixed
set of frames, any one that nothing leads out of (`Store.Closed`); what was reachable at the beginning,
together with all that did not exist then, is such a set.
-/

namespace ScopeLisp

namespace Store

variable {s t : Store} {roots R : FrameId → Prop} {f g : FrameId} {v : Value}

/-- The frame that a value is a handle to: that of an object, or the one a closure was made in. -/
def frameOf? (s : Store) : Value → Option FrameId
  | .object f => some f
  | .proc id => (s.closures[id]?).map Closure.scope
  | _ => none

/-- The frames that can be found from some frames on, going by links and bound values. -/
inductive Reachable (s : Store) (roots : FrameId → Prop) : FrameId → Prop
  | root {f : FrameId} (h : roots f) : Reachable s roots f
  | parent {f p : FrameId} (h : Reachable s roots f) (hp : s.parent? f = some p) :
      Reachable s roots p
  | value {f g : FrameId} {name : String} {v : Value} (h : Reachable s roots f)
      (hv : (s.own f).get? name = some v) (hg : s.frameOf? v = some g) : Reachable s roots g

/-- Nothing leads out of `R`. -/
structure Closed (s : Store) (R : FrameId → Prop) : Prop where
  parent : ∀ f p, R f → s.parent? f = some p → R p
  value : ∀ f name v g, R f → (s.own f).get? name = some v → s.frameOf? v = some g → R g

theorem Reachable.mem_closed (h : s.Reachable roots f) (hR : s.Closed R)
    (hroots : ∀ g, roots g → R g) : R f := by
  induction h with
  | root h => exact hroots _ h
  | parent _ hp ih => exact hR.parent _ _ ih hp
  | value _ hv hg ih => exact hR.value _ _ _ _ ih hv hg

/-- Can be found from `roots`, or does not exist yet. -/
def Accessible (s : Store) (roots : FrameId → Prop) (f : FrameId) : Prop :=
  s.Reachable roots f ∨ s.frames.size ≤ f

/-- Frames that do not exist lead nowhere. -/
theorem closed_accessible : s.Closed (s.Accessible roots) where
  parent f p hf hp := by
    rcases hf with hf | hf
    · exact .inl (hf.parent hp)
    · exact absurd (lt_of_parent? hp) (Nat.not_lt.2 hf)
  value f name v g hf hv hg := by
    rcases hf with hf | hf
    · exact .inl (hf.value hv hg)
    · exact absurd (lt_of_get? hv) (Nat.not_lt.2 hf)

theorem frameOf?_proc {id : ClosureId} :
    s.frameOf? (.proc id) = some g ↔ ∃ c, s.closures[id]? = some c ∧ c.scope = g :=
  Option.map_eq_some_iff

theorem frameOf?_plain (h : v.IsPlain) : s.frameOf? v = none := by
  cases v with
  | proc id => exact absurd rfl h.1
  | object f => exact absurd rfl h.2
  | _ => rfl

theorem frameOf?_addClosure {c : Closure} (h : (s.addClosure c).2.frameOf? v = some g) :
    s.frameOf? v = some g ∨ g = c.scope := by
  cases v with
  | proc id =>
    obtain ⟨c', hc', rfl⟩ := frameOf?_proc.1 h
    rw [closures_addClosure] at hc'
    split at hc'
    · cases hc'
      exact .inr rfl
    · exact .inl (frameOf?_proc.2 ⟨c', hc', rfl⟩)
  | _ => exact .inl h

namespace Closed

theorem chainUpTo (h : s.Closed R) {limit : Nat} (hf : R f) (hg : g ∈ s.chainUpTo limit f) :
    R g := by
  induction limit generalizing f with
  | zero => cases hg
  | succ limit ih =>
    rw [Store.chainUpTo] at hg
    cases hframe : s.frames[f]? with
    | none =>
      rw [hframe] at hg
      cases hg
    | some frame =>
      rw [hframe] at hg
      rcases List.mem_cons.1 hg with rfl | hg
      · exact hf
      · cases hparent : frame.parent with
        | none =>
          rw [hparent] at hg
          cases hg
        | some p =>
          rw [hparent] at hg
          have hp : s.parent? f = some p := by rw [Store.parent?, hframe]; exact hparent
          exact ih (h.parent f p hf hp) hg

theorem chain (h : s.Closed R) (hf : R f) (hg : g ∈ s.chain f) : R g := h.chainUpTo hf hg

/-- What is bound in `R` may be anything that is a handle into `R`. -/
theorem define (h : s.Closed R) (f : FrameId) (name : String)
    (hv : ∀ g, s.frameOf? v = some g → R g) : (s.define f name v).Closed R where
  parent g p hg hp := by
    rw [parent?_define] at hp
    exact h.parent g p hg hp
  value g other w k hg hw hk := by
    have hk' : s.frameOf? w = some k := hk
    rcases get?_of_define hw with ⟨-, rfl⟩ | hw
    · exact hv k hk'
    · exact h.value g other w k hg hw hk'

theorem addFrame (h : s.Closed R) (role : Role) {p : FrameId} (hp : R p) :
    (s.addFrame role (some p)).2.Closed R where
  parent f q hf hq := by
    rw [parent?_addFrame] at hq
    split at hq
    · cases hq
      exact hp
    · exact h.parent f q hf hq
  value f name v g hf hv hg := by
    rw [own_addFrame] at hv
    exact h.value f name v g hf hv hg

theorem addClosure (h : s.Closed R) {c : Closure} (hc : R c.scope) :
    (s.addClosure c).2.Closed R where
  parent := h.parent
  value f name v g hf hv hg := by
    rcases frameOf?_addClosure hg with hg | rfl
    · exact h.value f name v g hf hv hg
    · exact hc

end Closed

/-- From `s` to `t` only frames of `R` were written, and closures were made in no others. -/
structure Within (R : FrameId → Prop) (s t : Store) : Prop where
  frame : ∀ f, ¬ R f → t.frames[f]? = s.frames[f]?
  closure : ∀ (id : ClosureId) (c : Closure), t.closures[id]? = some c →
    s.closures[id]? = some c ∨ R c.scope

namespace Within

theorem refl : Within R s s := ⟨fun _ _ => rfl, fun _ _ => .inl⟩

theorem trans {u : Store} (h₁ : Within R s t) (h₂ : Within R t u) : Within R s u where
  frame f hf := (h₂.frame f hf).trans (h₁.frame f hf)
  closure id c hc := by
    rcases h₂.closure id c hc with hc | hc
    · exact h₁.closure id c hc
    · exact .inr hc

theorem define (hf : R f) (name : String) (v : Value) : Within R s (s.define f name v) where
  frame g hg := by
    have hne : g ≠ f := fun h => hg (h ▸ hf)
    rw [getElem?_define, if_neg hne]
  closure _ _ := .inl

theorem addFrame (hnew : R s.frames.size) (role : Role) (parent : Option FrameId) :
    Within R s (s.addFrame role parent).2 where
  frame g hg := by
    have hne : g ≠ s.frames.size := fun h => hg (h ▸ hnew)
    rw [getElem?_addFrame, if_neg hne]
  closure _ _ := .inl

theorem addClosure {c : Closure} (hc : R c.scope) : Within R s (s.addClosure c).2 where
  frame _ _ := rfl
  closure id c' hc' := by
    rw [closures_addClosure] at hc'
    split at hc'
    · cases hc'
      exact .inr hc
    · exact .inl hc'

/-- A handle that came to lead somewhere leads into `R`. -/
theorem frameOf? (h : Within R s t) (hs : ∀ g, s.frameOf? v = some g → R g)
    (hg : t.frameOf? v = some g) : R g := by
  cases v with
  | proc id =>
    obtain ⟨c, hc, rfl⟩ := frameOf?_proc.1 hg
    rcases h.closure id c hc with hc | hc
    · exact hs _ (frameOf?_proc.2 ⟨c, hc, rfl⟩)
    · exact hc
  | object f => exact hs g hg
  | _ => cases hg

end Within

end Store

/-- Only frames of `R` are seen and written. -/
def Discipline.within (R : FrameId → Prop) : Discipline where
  Good s := s.Closed R ∧ s.NewIn R
  Step := Store.Within R
  Scope _ := R
  Home _ := R
  Fit s v := ∀ g, s.frameOf? v = some g → R g
  Code _ := True
  step_refl _ := .refl
  step_trans := .trans
  scope_mono _ _ hf := hf
  home_mono _ _ hf := hf
  fit_mono _ hstep hv _ hg := hstep.frameOf? hv hg
  scope_of_home hf := hf
  parts _ _ _ _ := trivial
  fit_plain hv g hg := by
    rw [Store.frameOf?_plain hv] at hg
    cases hg
  fit_lookup hs henv hv g hg := by
    obtain ⟨f, hf, hfv⟩ := Store.mem_chain_of_lookup? hv
    exact hs.1.value f _ _ g (hs.1.chain henv hf) hfv hg
  home_object _ hf := hf _ rfl
  closure _ hid hc := ⟨hid _ (Store.frameOf?_proc.2 ⟨_, hc, rfl⟩), trivial⟩
  define {s f v} name hs hf hv :=
    ⟨⟨hs.1.define f name hv, hs.2.grows (.define .refl f name v)⟩, .define hf name v⟩
  assign {s env f name v} hs henv hf hv := by
    have hmem : R f := hs.1.chain henv (Store.mem_chain_of_owner? hf).1
    exact ⟨⟨hs.1.define f name hv, hs.2.grows (.define .refl f name v)⟩, .define hmem name v⟩
  addFrame {s p} role hs hp _ := by
    have hnew : R s.frames.size := hs.2 _ (Nat.le_refl _)
    have hgrows : s.Grows (s.addFrame role (some p)).2 := .addFrame .refl role (some p)
    refine ⟨⟨hs.1.addFrame role hp, hs.2.grows hgrows⟩, .addFrame hnew role (some p), hnew, ?_⟩
    rintro _ g hg
    cases hg
    exact hnew
  addClosure {s d params body env} hs henv _ _ := by
    have hc : R (Closure.mk params body env).scope := henv
    refine ⟨⟨hs.1.addClosure hc, hs.2⟩, .addClosure hc, fun g hg => ?_⟩
    obtain ⟨c, hget, rfl⟩ := Store.frameOf?_proc.1 hg
    rw [Store.closures_addClosure, if_pos rfl] at hget
    cases hget
    exact henv

namespace Store

variable {s : Store}

theorem good_accessible {before : FrameId → Prop} :
    (Discipline.within (s.Accessible before)).Good s := ⟨closed_accessible, fun _ hf => .inr hf⟩

/-- From `s` to `t` nothing was written but what could be reached before from the frames `before`, or
was added; and nothing else can be reached now from the frames `after`. -/
structure Confined (s t : Store) (before after : FrameId → Prop) : Prop where
  untouched : ∀ f < s.frames.size, ¬ s.Reachable before f → t.frames[f]? = s.frames[f]?
  /-- Frames added since are numbered from the former number of frames on. -/
  reachable : ∀ f, t.Reachable after f → s.Reachable before f ∨ s.frames.size ≤ f

def Yields {ε : Type} (s : Store) (r : Except ε Value) (f : FrameId) : Prop :=
  ∃ v, r = .ok v ∧ s.frameOf? v = some f

/-- A run that keeps to what is accessible at its beginning is confined to it. -/
theorem confined_of_keeps {ε : Type} {before after : FrameId → Prop} {x : Action ε Value}
    {c : Console} {r : Except ε Value} {u : State}
    (hx : (Discipline.within (s.Accessible before)).Keeps s x
      (Discipline.within (s.Accessible before)).Fit)
    (hrun : (x ⟨s, c⟩).result? = some (r, u))
    (hafter : Within (s.Accessible before) s u.store →
      ∀ f, after f → s.Accessible before f ∨ u.store.Yields r f) :
    s.Confined u.store before after := by
  obtain ⟨hleads, hfit⟩ := hx.of_result? hrun
  have hwithin : Within (s.Accessible before) s u.store := hleads.step
  refine ⟨fun f hf hnot => hwithin.frame f ?_, fun f hf => ?_⟩
  · rintro (h | h)
    · exact hnot h
    · exact absurd hf (Nat.not_lt.2 h)
  · refine hf.mem_closed hleads.good.1 fun g hg => ?_
    rcases hafter hwithin g hg with hg | ⟨v, rfl, hv⟩
    · exact hg
    · exact hfit v rfl g hv

end Store

/-- **Frame property.** Evaluation in a frame, and a call with some arguments, leave what they cannot
reach as it was, and give access to nothing but what could be reached before and what they added. -/
theorem Store.confined_of_ends :
    (∀ (fuel : Nat) (d : Datum) (env : FrameId) (s t : State) (r : Except RunError Value),
      (eval fuel d env s).result? = some (r, t) →
      s.store.Confined t.store (fun f => f = env) fun f => f = env ∨ t.store.Yields r f) ∧
    (∀ (fuel : Nat) (callee : String) (c : Closure) (args : List Value) (s t : State)
      (r : Except RunError Value),
      ((eval fuel).callClosure callee c args s).result? = some (r, t) →
      s.store.Confined t.store
        (fun f => f = c.scope ∨ ∃ v ∈ args, s.store.frameOf? v = some f)
        fun f => f = c.scope ∨ (∃ v ∈ args, t.store.frameOf? v = some f) ∨ t.store.Yields r f) := by
  refine ⟨fun fuel d env s t r hrun => ?_, fun fuel callee c args s t r hrun => ?_⟩
  · have henv : s.store.Accessible (fun f => f = env) env := .inl (.root rfl)
    refine confined_of_keeps (Discipline.eval_keeps _ fuel s.store d env good_accessible henv
      trivial) hrun fun _ f hf => ?_
    rcases hf with rfl | hf
    · exact .inl henv
    · exact .inr hf
  · let before f := f = c.scope ∨ ∃ v ∈ args, s.store.frameOf? v = some f
    have hscope : s.store.Accessible before c.scope := .inl (.root (.inl rfl))
    have hargs : ∀ v ∈ args, ∀ f, s.store.frameOf? v = some f → s.store.Accessible before f :=
      fun v hv f hf => .inl (.root (.inr ⟨v, hv, hf⟩))
    refine confined_of_keeps ((Discipline.eval_keeps _ fuel).callClosure good_accessible hscope
      trivial hargs) hrun fun hwithin f hf => ?_
    rcases hf with rfl | ⟨v, hv, hf⟩ | hf
    · exact .inl hscope
    · exact .inl (hwithin.frameOf? (hargs v hv) hf)
    · exact .inr hf

/-- Two interpreters in one store do not reach each other. -/
theorem Store.confined_of_second_interpreter :
    let s : State := ⟨(Store.fresh.addFrame .global none).2, {}⟩
    let o : Datum := .symbol "o"
    let d : Datum := .list [.symbol "var", o, .list [.symbol "lambda", .list [], o]]
    let c : Closure := ⟨["o"], .list [.symbol "set", .list [.symbol "prop", o, o], o], 1⟩
    ¬ s.store.Reachable (fun f => f = 1) 0 ∧
    (∃ r t, (eval 9 d 1 s).result? = some (r, t) ∧
      s.store.Confined t.store (fun f => f = 1) fun f => f = 1 ∨ t.store.Yields r f) ∧
    ∃ r t, ((eval 9).callClosure "f" c [.object 1] s).result? = some (r, t) ∧
      s.store.Confined t.store
        (fun f => f = c.scope ∨ ∃ v ∈ [Value.object 1], s.store.frameOf? v = some f)
        fun f => f = c.scope ∨ (∃ v ∈ [Value.object 1], t.store.frameOf? v = some f) ∨
          t.store.Yields r f := by
  intro s o d c
  refine ⟨fun h => ?_, ?_, ?_⟩
  · have hclosed : s.store.Closed fun f => f = 1 := by
      refine ⟨fun f p hf hp => ?_, fun f name v g hf hv _ => ?_⟩
      · have hnone : s.store.parent? 1 = none := by decide +kernel
        rw [hf, hnone] at hp
        cases hp
      · have hempty : (s.store.own 1) = {} := by decide +kernel
        rw [hf, hempty] at hv
        cases hv
    exact absurd (h.mem_closed hclosed fun g hg => hg) (by decide)
  · have hsome : (eval 9 d 1 s).result?.isSome = true := by decide +kernel
    obtain ⟨⟨r, t⟩, hrun⟩ := Option.isSome_iff_exists.1 hsome
    exact ⟨r, t, hrun, Store.confined_of_ends.1 9 d 1 s t r hrun⟩
  · have hsome : ((eval 9).callClosure "f" c [.object 1] s).result?.isSome = true := by
      decide +kernel
    obtain ⟨⟨r, t⟩, hrun⟩ := Option.isSome_iff_exists.1 hsome
    exact ⟨r, t, hrun, Store.confined_of_ends.2 9 "f" c [.object 1] s t r hrun⟩

end ScopeLisp

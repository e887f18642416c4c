import ScopeLisp.Store

/-!
# Growth of stores

`Store.Grows` is any number of single writes: a name is bound in a frame, a frame is added, a
closure is added. No write moves a frame, changes what it was made for or what it is linked to, or
takes a name or a closure away, and so neither does any number of them. A frame that has appeared on
the way was added at one point of it, linked as it is at the end (`Grows.exists_addFrame`).
-/

namespace ScopeLisp

namespace Store

/-- `t` comes from `s` by single writes. -/
inductive Grows (s : Store) : Store → Prop
  | refl : Grows s s
  | define {t : Store} (h : Grows s t) (f : FrameId) (name : String) (v : Value) :
      Grows s (t.define f name v)
  | addFrame {t : Store} (h : Grows s t) (role : Role) (parent : Option FrameId) :
      Grows s (t.addFrame role parent).2
  | addClosure {t : Store} (h : Grows s t) (c : Closure) : Grows s (t.addClosure c).2

namespace Grows

variable {s t u : Store}

theorem trans (h₁ : s.Grows t) (h₂ : t.Grows u) : s.Grows u := by
  induction h₂ with
  | refl => exact h₁
  | define _ f name v ih => exact ih.define f name v
  | addFrame _ role parent ih => exact ih.addFrame role parent
  | addClosure _ c ih => exact ih.addClosure c

theorem size_le (h : s.Grows t) : s.frames.size ≤ t.frames.size := by
  induction h with
  | refl => exact Nat.le_refl _
  | define _ f name v ih => rwa [size_define]
  | addFrame _ role parent ih =>
    rw [size_addFrame]
    omega
  | addClosure _ c ih => exact ih

theorem size_closures_le (h : s.Grows t) : s.closures.size ≤ t.closures.size := by
  induction h with
  | refl => exact Nat.le_refl _
  | define _ f name v ih => exact ih
  | addFrame _ role parent ih => exact ih
  | addClosure _ c ih =>
    rw [size_addClosure]
    omega

/-- Of a frame only the bindings change. -/
theorem frame (h : s.Grows t) {f : FrameId} {x : Frame} (hf : s.frames[f]? = some x) :
    ∃ vars, t.frames[f]? = some { x with vars := vars } := by
  induction h with
  | refl => exact ⟨x.vars, hf⟩
  | define _ g name v ih =>
    obtain ⟨vars, hvars⟩ := ih
    rw [getElem?_define, hvars]
    split
    · exact ⟨vars.insert name v, rfl⟩
    · exact ⟨vars, rfl⟩
  | @addFrame t h role parent ih =>
    obtain ⟨vars, hvars⟩ := ih
    have hlt : f < t.frames.size := (Array.getElem?_eq_some_iff.1 hvars).1
    rw [getElem?_addFrame, if_neg (Nat.ne_of_lt hlt)]
    exact ⟨vars, hvars⟩
  | addClosure _ c ih => exact ih

theorem parent? (h : s.Grows t) {f : FrameId} (hf : f < s.frames.size) :
    t.parent? f = s.parent? f := by
  obtain ⟨x, hx⟩ : ∃ x, s.frames[f]? = some x := ⟨_, Array.getElem?_eq_getElem hf⟩
  obtain ⟨vars, hvars⟩ := h.frame hx
  unfold Store.parent?
  rw [hx, hvars]
  rfl

theorem closure (h : s.Grows t) {id : ClosureId} {c : Closure} (hc : s.closures[id]? = some c) :
    t.closures[id]? = some c := by
  induction h with
  | refl => exact hc
  | define _ f name v ih => exact ih
  | addFrame _ role parent ih => exact ih
  | @addClosure t _ c' ih =>
    have hlt : id < t.closures.size := (Array.getElem?_eq_some_iff.1 ih).1
    rw [closures_addClosure, if_neg (Nat.ne_of_lt hlt)]
    exact ih

/-- A frame that is there now but was not there once was added in between, in the frame that it is
still linked to. -/
theorem exists_addFrame (h : s.Grows t) {f : FrameId} (hs : s.frames.size ≤ f)
    (ht : f < t.frames.size) : ∃ u role, s.Grows u ∧ u.frames.size = f ∧
      (u.addFrame role (t.parent? f)).2.Grows t := by
  induction h with
  | refl => exact absurd ht (Nat.not_lt.2 hs)
  | define _ g name v ih =>
    rw [size_define] at ht
    obtain ⟨u, role, hu, hsize, hgrows⟩ := ih ht
    rw [parent?_define]
    exact ⟨u, role, hu, hsize, hgrows.define g name v⟩
  | @addFrame t h role parent ih =>
    rw [size_addFrame] at ht
    rw [parent?_addFrame]
    split
    · next hf => exact ⟨t, role, h, hf.symm, .refl⟩
    · next hf =>
      have hlt : f < t.frames.size := Nat.lt_of_le_of_ne (Nat.le_of_lt_succ ht) hf
      obtain ⟨u, role', hu, hsize, hgrows⟩ := ih hlt
      exact ⟨u, role', hu, hsize, hgrows.addFrame role parent⟩
  | addClosure _ c ih =>
    obtain ⟨u, role, hu, hsize, hgrows⟩ := ih ht
    exact ⟨u, role, hu, hsize, hgrows.addClosure c⟩

end Grows

/-- All frames that do not exist yet have `P`. -/
def NewIn (s : Store) (P : FrameId → Prop) : Prop := ∀ f, s.frames.size ≤ f → P f

theorem NewIn.grows {s t : Store} {P : FrameId → Prop} (h : s.NewIn P) (hg : s.Grows t) :
    t.NewIn P := fun f hf => h f (Nat.le_trans hg.size_le hf)

end Store

end ScopeLisp

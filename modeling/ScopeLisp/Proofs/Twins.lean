import Mathlib.Data.List.Forall2
import ScopeLisp.Proofs.Chain
import ScopeLisp.Proofs.Mention

/-!
# Twin stores

Two stores can differ in the numbers of their frames and closures, and in frames that a program
cannot reach, and still be the same to the program. `Twins` are two stores with the frames and
closures that are taken for each other, and `Twins.Alike` is what makes them so: along the chains of
such frames, all names that may be looked up mean values that cannot be told apart. It is an
invariant of writing the same to both: `Twins.Leads` says what a write may do, with one lemma for
each kind of write. What is not paired may differ, and is left alone.
-/

namespace ScopeLisp

/-- Frames and closures of one store, each with a twin in another. -/
structure Pairing where
  frame : FrameId → FrameId → Prop
  /-- Twins that bind the same names, so that they have the same text as objects. -/
  object : FrameId → FrameId → Prop
  closure : ClosureId → ClosureId → Prop

namespace Pairing

/-- Values that a program cannot tell apart. -/
inductive Like (p : Pairing) : Value → Value → Prop
  | plain {v : Value} (h : v.IsPlain) : Like p v v
  | proc {a b : ClosureId} (h : p.closure a b) : Like p (.proc a) (.proc b)
  | object {f g : FrameId} (h : p.object f g) : Like p (.object f) (.object g)

structure Sub (p q : Pairing) : Prop where
  frame : ∀ {f g}, p.frame f g → q.frame f g
  object : ∀ {f g}, p.object f g → q.object f g
  closure : ∀ {a b}, p.closure a b → q.closure a b

theorem Sub.refl (p : Pairing) : p.Sub p := ⟨id, id, id⟩

theorem Sub.trans {p q r : Pairing} (h₁ : p.Sub q) (h₂ : q.Sub r) : p.Sub r :=
  ⟨fun h => h₂.frame (h₁.frame h), fun h => h₂.object (h₁.object h),
    fun h => h₂.closure (h₁.closure h)⟩

def addFrame (p : Pairing) (f g : FrameId) : Pairing where
  frame a b := p.frame a b ∨ (a = f ∧ b = g)
  object a b := p.object a b ∨ (a = f ∧ b = g)
  closure := p.closure

def addClosure (p : Pairing) (a b : ClosureId) : Pairing where
  frame := p.frame
  object := p.object
  closure c d := p.closure c d ∨ (c = a ∧ d = b)

theorem sub_addFrame (p : Pairing) (f g : FrameId) : p.Sub (p.addFrame f g) := ⟨.inl, .inl, id⟩

theorem sub_addClosure (p : Pairing) (a b : ClosureId) : p.Sub (p.addClosure a b) :=
  ⟨id, id, .inl⟩

namespace Like

variable {p q : Pairing} {v w : Value}

theorem mono (h : p.Like v w) (hpq : p.Sub q) : q.Like v w := by
  cases h with
  | plain h => exact .plain h
  | proc h => exact .proc (hpq.closure h)
  | object h => exact .object (hpq.object h)

theorem number (x : Float) : p.Like (.number x) (.number x) := .plain ⟨nofun, nofun⟩

theorem str (text : String) : p.Like (.str text) (.str text) := .plain ⟨nofun, nofun⟩

theorem unit : p.Like .unit .unit := .plain ⟨nofun, nofun⟩

theorem kind_eq (h : p.Like v w) : v.kind = w.kind := by
  cases h <;> rfl

theorem truth_eq (h : p.Like v w) : v.truth = w.truth := by
  cases h <;> rfl

end Like

theorem rel_mono {p q : Pairing} (hpq : p.Sub q) {x y : Option Value}
    (h : Option.Rel p.Like x y) : Option.Rel q.Like x y := by
  cases h with
  | some h => exact .some (h.mono hpq)
  | none => exact .none

end Pairing

/-- Two stores and what is taken for each other in them. -/
structure Twins extends Pairing where
  left : Store
  right : Store

namespace Twins

/-- What is taken for each other cannot be told apart by looking up names with `P`. -/
structure Alike (P : String → Prop) (w : Twins) : Prop where
  chain : ∀ {f g}, w.frame f g →
    ∃ fs gs, w.left.Chain f fs ∧ w.right.Chain g gs ∧ List.Forall₂ w.frame fs gs
  frame_iff : ∀ {f g f' g'}, w.frame f g → w.frame f' g' → (f = f' ↔ g = g')
  frame_of_object : ∀ {f g}, w.object f g → w.frame f g
  value : ∀ {f g name}, w.frame f g → P name →
    Option.Rel w.Like ((w.left.own f).get? name) ((w.right.own g).get? name)
  names : ∀ {f g}, w.object f g → w.left.names f = w.right.names g
  closure_iff : ∀ {a b a' b'}, w.closure a b → w.closure a' b' → (a = a' ↔ b = b')
  closure : ∀ {a b}, w.closure a b → ∃ c scope, w.left.closures[a]? = some c ∧
    w.right.closures[b]? = some { c with scope } ∧ w.frame c.scope scope ∧ c.body.Code P

/-- What may become of twins: there are more of them, and nothing is written on the left but frames
that have twins. -/
structure Leads (P : String → Prop) (w w' : Twins) : Prop where
  alike : w'.Alike P
  sub : w.toPairing.Sub w'.toPairing
  grows : w.left.Grows w'.left
  new : ∀ {f g}, w'.frame f g → w.frame f g ∨ w.left.frames.size ≤ f
  untouched : ∀ f < w.left.frames.size, (∀ g, ¬ w.frame f g) → w'.left.own f = w.left.own f

variable {P : String → Prop} {w w' w'' : Twins} {f g : FrameId} {v v' : Value}

theorem Leads.refl (h : w.Alike P) : w.Leads P w where
  alike := h
  sub := .refl _
  grows := .refl
  new := .inl
  untouched _ _ _ := rfl

theorem Leads.trans (h₁ : w.Leads P w') (h₂ : w'.Leads P w'') : w.Leads P w'' where
  alike := h₂.alike
  sub := h₁.sub.trans h₂.sub
  grows := h₁.grows.trans h₂.grows
  new hf := by
    rcases h₂.new hf with hf | hle
    · exact h₁.new hf
    · exact .inr (Nat.le_trans h₁.grows.size_le hle)
  untouched f hf hnot := by
    have hf' := Nat.lt_of_lt_of_le hf h₁.grows.size_le
    rw [h₂.untouched f hf' fun g hg => ?_, h₁.untouched f hf hnot]
    rcases h₁.new hg with hg | hle
    · exact hnot g hg
    · exact absurd hf (Nat.not_lt.2 hle)

namespace Alike

theorem lt (h : w.Alike P) (hf : w.frame f g) :
    f < w.left.frames.size ∧ g < w.right.frames.size := by
  obtain ⟨fs, gs, hleft, hright, -⟩ := h.chain hf
  constructor
  · cases hleft with
    | top hf _ => exact hf
    | inside hp _ => exact Store.lt_of_parent? hp
  · cases hright with
    | top hg _ => exact hg
    | inside hp _ => exact Store.lt_of_parent? hp

theorem closure_lt (h : w.Alike P) {a b : ClosureId} (hab : w.closure a b) :
    a < w.left.closures.size ∧ b < w.right.closures.size := by
  obtain ⟨c, scope, hleft, hright, -, -⟩ := h.closure hab
  exact ⟨(Array.getElem?_eq_some_iff.1 hleft).1, (Array.getElem?_eq_some_iff.1 hright).1⟩

/-! ## Reading -/

theorem findSome?_rel (h : w.Alike P) {name : String} (hname : P name) {fs gs : List FrameId}
    (hfs : List.Forall₂ w.frame fs gs) :
    Option.Rel w.Like (fs.findSome? fun f => (w.left.own f).get? name)
      (gs.findSome? fun g => (w.right.own g).get? name) := by
  induction hfs with
  | nil => exact .none
  | @cons f g fs gs hf _ ih =>
    have hv := h.value hf hname
    rw [List.findSome?_cons, List.findSome?_cons]
    generalize (w.left.own f).get? name = x at hv ⊢
    generalize (w.right.own g).get? name = y at hv ⊢
    cases hv with
    | some hv => exact .some hv
    | none => exact ih

theorem lookup? (h : w.Alike P) (hf : w.frame f g) {name : String} (hname : P name) :
    Option.Rel w.Like (w.left.lookup? f name) (w.right.lookup? g name) := by
  obtain ⟨fs, gs, hleft, hright, hfs⟩ := h.chain hf
  rw [Store.lookup?, Store.lookup?, hleft.chain_eq, hright.chain_eq]
  exact h.findSome?_rel hname hfs

theorem owns_eq (h : w.Alike P) (hf : w.frame f g) {name : String} (hname : P name) :
    (w.left.own f).owns name = (w.right.own g).owns name := by
  have hv := h.value hf hname
  unfold Bindings.owns
  generalize (w.left.own f).get? name = x at hv ⊢
  generalize (w.right.own g).get? name = y at hv ⊢
  cases hv <;> rfl

theorem owner? (h : w.Alike P) (hf : w.frame f g) {name : String} (hname : P name) :
    Option.Rel w.frame (w.left.owner? f name) (w.right.owner? g name) := by
  obtain ⟨fs, gs, hleft, hright, hfs⟩ := h.chain hf
  rw [Store.owner?, Store.owner?, hleft.chain_eq, hright.chain_eq]
  clear hleft hright
  induction hfs with
  | nil => exact .none
  | @cons f g fs gs hf _ ih =>
    rw [List.find?_cons, List.find?_cons, h.owns_eq hf hname]
    cases (w.right.own g).owns name with
    | true => exact .some hf
    | false => exact ih

theorem text_eq (h : w.Alike P) (hv : w.Like v v') : v.text w.left = v'.text w.right := by
  cases hv with
  | plain hv =>
    cases v with
    | proc => exact absurd rfl hv.1
    | object => exact absurd rfl hv.2
    | bool b => cases b <;> rfl
    | _ => rfl
  | proc hab =>
    obtain ⟨c, scope, hleft, hright, -, -⟩ := h.closure hab
    rw [Value.text, Value.text, hleft, hright]
    rfl
  | object hf => rw [Value.text, Value.text, h.names hf]

theorem equal_eq (h : w.Alike P) {a a' b b' : Value} (ha : w.Like a a') (hb : w.Like b b') :
    a.equal b = a'.equal b' := by
  by_cases hk : a.kind = b.kind
  · cases ha with
    | plain ha =>
      cases hb with
      | plain => rfl
      | proc => exact absurd hk ha.1
      | object => exact absurd hk ha.2
    | proc ha =>
      cases hb with
      | plain hb => exact absurd hk.symm hb.1
      | proc hb => simp [Value.equal, h.closure_iff ha hb]
      | object => cases hk
    | object ha =>
      cases hb with
      | plain hb => exact absurd hk.symm hb.2
      | proc => cases hk
      | object hb => simp [Value.equal, h.frame_iff (h.frame_of_object ha) (h.frame_of_object hb)]
  · have hk' : a'.kind ≠ b'.kind := ha.kind_eq ▸ hb.kind_eq ▸ hk
    rw [Value.equal_of_kind_ne hk, Value.equal_of_kind_ne hk']

end Alike

/-! ## Writing -/

/-- Binds a name in a frame and in its twin. -/
def define (w : Twins) (f g : FrameId) (name : String) (v v' : Value) : Twins :=
  { w with left := w.left.define f name v, right := w.right.define g name v' }

/-- Adds a frame inside of a frame and one inside of its twin. -/
def addFrame (w : Twins) (role role' : Role) (f g : FrameId) : Twins where
  toPairing := w.toPairing.addFrame w.left.frames.size w.right.frames.size
  left := (w.left.addFrame role (some f)).2
  right := (w.right.addFrame role' (some g)).2

/-- Adds a closure that is made in a frame and one that is made in its twin. -/
def addClosure (w : Twins) (params : List String) (body : Datum) (f g : FrameId) : Twins where
  toPairing := w.toPairing.addClosure w.left.closures.size w.right.closures.size
  left := (w.left.addClosure ⟨params, body, f⟩).2
  right := (w.right.addClosure ⟨params, body, g⟩).2

namespace Alike

/-- A store may grow on its own where it has no twins. -/
theorem of_grows (h : w.Alike P) {s : Store} (hs : w.left.Grows s)
    (hown : ∀ {f g}, w.frame f g → s.own f = w.left.own f) :
    Alike P { w with left := s } where
  chain hf := by
    obtain ⟨fs, gs, hfs, hgs, hall⟩ := h.chain hf
    exact ⟨fs, gs, hfs.grows hs, hgs, hall⟩
  frame_iff := h.frame_iff
  frame_of_object := h.frame_of_object
  value hf hname := by
    show Option.Rel w.Like ((s.own _).get? _) _
    rw [hown hf]
    exact h.value hf hname
  names hf := by
    show (s.own _).names = _
    rw [hown (h.frame_of_object hf)]
    exact h.names hf
  closure_iff := h.closure_iff
  closure hab := by
    obtain ⟨c, scope, hc, hc', hscope, hbody⟩ := h.closure hab
    exact ⟨c, scope, hs.closure hc, hc', hscope, hbody⟩

theorem define (h : w.Alike P) (hf : w.frame f g) (name : String) (hv : w.Like v v') :
    (w.define f g name v v').Alike P where
  chain hf' := by
    obtain ⟨fs, gs, hfs, hgs, hall⟩ := h.chain hf'
    exact ⟨fs, gs, hfs.grows (.define .refl ..), hgs.grows (.define .refl ..), hall⟩
  frame_iff := h.frame_iff
  frame_of_object := h.frame_of_object
  value {f' g' other} hf' hname := by
    have hother := h.value hf' hname
    show Option.Rel w.Like (((w.left.define f name v).own f').get? other)
      (((w.right.define g name v').own g').get? other)
    rw [Store.own_define _ (h.lt hf).1, Store.own_define _ (h.lt hf).2]
    -- A frame is the one written on the left just if its twin is the one written on the right.
    by_cases heq : f' = f
    · rw [if_pos heq, if_pos ((h.frame_iff hf' hf).1 heq), Bindings.get?_insert,
        Bindings.get?_insert]
      split
      · exact .some hv
      · exact hother
    · rw [if_neg heq, if_neg (mt (h.frame_iff hf' hf).2 heq)]
      exact hother
  names {f' g'} hf' := by
    have hnames := h.names hf'
    have hiff := h.frame_iff (h.frame_of_object hf') hf
    show ((w.left.define f name v).own f').names = ((w.right.define g name v').own g').names
    rw [Store.own_define _ (h.lt hf).1, Store.own_define _ (h.lt hf).2]
    by_cases heq : f' = f
    · rw [if_pos heq, if_pos (hiff.1 heq)]
      exact Bindings.names_insert_congr hnames name v v'
    · rw [if_neg heq, if_neg (mt hiff.2 heq)]
      exact hnames
  closure_iff := h.closure_iff
  closure := h.closure

theorem addFrame (h : w.Alike P) (hf : w.frame f g) (role role' : Role) :
    (w.addFrame role role' f g).Alike P where
  chain {f' g'} hf' := by
    have hleft : w.left.Grows (w.addFrame role role' f g).left := .addFrame .refl ..
    have hright : w.right.Grows (w.addFrame role role' f g).right := .addFrame .refl ..
    rcases hf' with hf' | ⟨rfl, rfl⟩
    · obtain ⟨fs, gs, hfs, hgs, hall⟩ := h.chain hf'
      exact ⟨fs, gs, hfs.grows hleft, hgs.grows hright, hall.imp fun _ _ => .inl⟩
    -- From the new frame the chain goes on as from the frame that it is in.
    · obtain ⟨fs, gs, hfs, hgs, hall⟩ := h.chain hf
      refine ⟨_ :: fs, _ :: gs, .inside ?_ (hfs.grows hleft), .inside ?_ (hgs.grows hright),
        .cons (.inr ⟨rfl, rfl⟩) (hall.imp fun _ _ => .inl)⟩
      · exact (Store.parent?_addFrame ..).trans (if_pos rfl)
      · exact (Store.parent?_addFrame ..).trans (if_pos rfl)
  frame_iff {f₁ g₁ f₂ g₂} h₁ h₂ := by
    rcases h₁ with h₁ | ⟨rfl, rfl⟩ <;> rcases h₂ with h₂ | ⟨rfl, rfl⟩
    · exact h.frame_iff h₁ h₂
    · exact iff_of_false (Nat.ne_of_lt (h.lt h₁).1) (Nat.ne_of_lt (h.lt h₁).2)
    · exact iff_of_false (Nat.ne_of_gt (h.lt h₂).1) (Nat.ne_of_gt (h.lt h₂).2)
    · exact ⟨fun _ => rfl, fun _ => rfl⟩
  frame_of_object {f' g'} hf' := by
    rcases hf' with hf' | hf'
    · exact .inl (h.frame_of_object hf')
    · exact .inr hf'
  value {f' g' name} hf' hname := by
    have hsub := w.toPairing.sub_addFrame w.left.frames.size w.right.frames.size
    refine Pairing.rel_mono hsub ?_
    show Option.Rel w.Like (((w.left.addFrame role (some f)).2.own f').get? name)
      (((w.right.addFrame role' (some g)).2.own g').get? name)
    rw [Store.own_addFrame, Store.own_addFrame]
    rcases hf' with hf' | ⟨rfl, rfl⟩
    · exact h.value hf' hname
    · rw [Store.own_of_le (Nat.le_refl _), Store.own_of_le (Nat.le_refl _)]
      exact .none
  names {f' g'} hf' := by
    show ((w.left.addFrame role (some f)).2.own f').names =
      ((w.right.addFrame role' (some g)).2.own g').names
    rw [Store.own_addFrame, Store.own_addFrame]
    rcases hf' with hf' | ⟨rfl, rfl⟩
    · exact h.names hf'
    · rw [Store.own_of_le (Nat.le_refl _), Store.own_of_le (Nat.le_refl _)]
  closure_iff := h.closure_iff
  closure hab := by
    obtain ⟨c, scope, hc, hc', hscope, hbody⟩ := h.closure hab
    exact ⟨c, scope, hc, hc', .inl hscope, hbody⟩

theorem addClosure (h : w.Alike P) (hf : w.frame f g) (params : List String) {body : Datum}
    (hbody : body.Code P) : (w.addClosure params body f g).Alike P where
  chain hf' := by
    obtain ⟨fs, gs, hfs, hgs, hall⟩ := h.chain hf'
    exact ⟨fs, gs, hfs.grows (.addClosure .refl _), hgs.grows (.addClosure .refl _), hall⟩
  frame_iff := h.frame_iff
  frame_of_object := h.frame_of_object
  value hf' hname :=
    Pairing.rel_mono (w.toPairing.sub_addClosure _ _) (h.value hf' hname)
  names := h.names
  closure_iff {a b a' b'} h₁ h₂ := by
    rcases h₁ with h₁ | ⟨rfl, rfl⟩ <;> rcases h₂ with h₂ | ⟨rfl, rfl⟩
    · exact h.closure_iff h₁ h₂
    · exact iff_of_false (Nat.ne_of_lt (h.closure_lt h₁).1) (Nat.ne_of_lt (h.closure_lt h₁).2)
    · exact iff_of_false (Nat.ne_of_gt (h.closure_lt h₂).1) (Nat.ne_of_gt (h.closure_lt h₂).2)
    · exact ⟨fun _ => rfl, fun _ => rfl⟩
  closure {a b} hab := by
    rcases hab with hab | ⟨rfl, rfl⟩
    · obtain ⟨c, scope, hc, hc', hscope, hcode⟩ := h.closure hab
      have hleft : w.left.Grows (w.addClosure params body f g).left := .addClosure .refl _
      have hright : w.right.Grows (w.addClosure params body f g).right := .addClosure .refl _
      exact ⟨c, scope, hleft.closure hc, hright.closure hc', hscope, hcode⟩
    · refine ⟨⟨params, body, f⟩, g, ?_, ?_, hf, hbody⟩
      · exact (Store.closures_addClosure ..).trans (if_pos rfl)
      · exact (Store.closures_addClosure ..).trans (if_pos rfl)

end Alike

namespace Leads

theorem define (h : w.Alike P) (hf : w.frame f g) (name : String) (hv : w.Like v v') :
    w.Leads P (w.define f g name v v') where
  alike := h.define hf name hv
  sub := .refl _
  grows := .define .refl ..
  new := .inl
  untouched f' _ hnot := by
    have hne : f' ≠ f := fun heq => hnot g (heq ▸ hf)
    show (w.left.define f name v).own f' = w.left.own f'
    exact Store.own_define_of_ne _ hne name v

theorem addFrame (h : w.Alike P) (hf : w.frame f g) (role role' : Role) :
    w.Leads P (w.addFrame role role' f g) where
  alike := h.addFrame hf role role'
  sub := Pairing.sub_addFrame ..
  grows := .addFrame .refl ..
  new hf' := by
    rcases hf' with hf' | ⟨rfl, rfl⟩
    · exact .inl hf'
    · exact .inr (Nat.le_refl _)
  untouched _ _ _ := Store.own_addFrame ..

theorem addClosure (h : w.Alike P) (hf : w.frame f g) (params : List String) {body : Datum}
    (hbody : body.Code P) : w.Leads P (w.addClosure params body f g) where
  alike := h.addClosure hf params hbody
  sub := Pairing.sub_addClosure ..
  grows := .addClosure .refl _
  new := .inl
  untouched _ _ _ := Store.own_addClosure ..

end Leads

end Twins

end ScopeLisp

import Mathlib.Data.Fintype.EquivFin
import ScopeLisp.Proofs.Assignment
import ScopeLisp.Proofs.ScopeTree

/-!
# Laws of scopes

A name means, from a frame, the binding in the first frame of its chain that binds the name
(`Store.FirstOwner`). A write can be seen from a frame if no nearer frame binds the name
(`Store.Sees`): then the name means what was written, and from all other frames it means what it meant,
as do all other names. Assigning writes to the first frame that binds the name, and so it can be seen
from just the frames that have the same first owner (`Store.Acyclic.scope_laws`). The laws need nothing
of the store but that the chains come to an end, and this they do if no frame is inside of itself
(`Store.Acyclic.exists_chain`).
-/

namespace ScopeLisp

/-- What a name means from a frame: a value, or the error that it is not defined. -/
def State.meaning (s : State) (f : FrameId) (name : String) : Except RunError Value :=
  match s.store.lookup? f name with
  | some v => .ok v
  | none => .error (.notDefined name)

/-- From the frames with `P` the name has come to mean `v`. No other meaning has changed. -/
def State.Rebound (s t : State) (name : String) (v : Value) (P : FrameId → Prop) : Prop :=
  ∀ f other, (other = name ∧ P f → t.meaning f other = .ok v) ∧
    (¬ (other = name ∧ P f) → t.meaning f other = s.meaning f other)

theorem Action.lookup_eq_meaning (f : FrameId) (name : String) (s : State) :
    Action.lookup f name s = Action.ofExcept (s.meaning f name) s := by
  rw [Action.lookup, State.meaning]
  cases s.store.lookup? f name <;> rfl

theorem State.meaning_eq_ok_iff {s : State} {f : FrameId} {name : String} {v : Value} :
    s.meaning f name = .ok v ↔ s.store.lookup? f name = some v := by
  rw [State.meaning]
  cases s.store.lookup? f name <;> simp

theorem State.meaning_congr {s t : State} {f g : FrameId} {name : String}
    (h : t.store.lookup? g name = s.store.lookup? f name) : t.meaning g name = s.meaning f name := by
  rw [State.meaning, State.meaning, h]

namespace Store

/-- The frame `f` is linked to the frame `p`. -/
def Inside (s : Store) (f p : FrameId) : Prop := s.parent? f = some p

/-- Links lead to frames that exist, and from no frame back to itself. -/
structure Acyclic (s : Store) : Prop where
  parent_lt : ∀ f p, s.Inside f p → p < s.frames.size
  irrefl : ∀ f, ¬ Relation.TransGen s.Inside f f

/-- On the chain of `f` no frame before `e` binds the name. -/
def Sees (s : Store) (name : String) (f e : FrameId) : Prop :=
  ∃ nearer further, s.Chain f (nearer ++ e :: further) ∧ ∀ g ∈ nearer, name ∉ s.names g

/-- On the chain of `f` the frame `o` is the first one that binds the name. -/
def FirstOwner (s : Store) (name : String) (f o : FrameId) : Prop :=
  s.Sees name f o ∧ name ∈ s.names o

variable {s t : Store} {f g e o : FrameId} {name other : String} {v : Value} {fs : List FrameId}

/-! ## Chains come to an end -/

/-- Without a way back, what is outside of a frame is a well-founded order of the frames. -/
theorem Acyclic.exists_chain (h : s.Acyclic) (hf : f < s.frames.size) : ∃ fs, s.Chain f fs := by
  let outer (p f : Fin s.frames.size) : Prop := Relation.TransGen s.Inside f p
  have htrans : IsTrans _ outer := ⟨fun _ _ _ hqp hpf => hpf.trans hqp⟩
  have hirrefl : Std.Irrefl outer := ⟨fun f => h.irrefl f⟩
  have hwf : WellFounded outer := Finite.wellFounded_of_trans_of_irrefl outer
  suffices hall : ∀ f : Fin s.frames.size, ∃ fs, s.Chain f fs from hall ⟨f, hf⟩
  intro f
  induction f using hwf.induction with
  | h f ih =>
    cases hp : s.parent? f with
    | none => exact ⟨[f.val], .top f.isLt hp⟩
    | some p =>
      obtain ⟨fs, hfs⟩ := ih ⟨p, h.parent_lt f p hp⟩ (.single hp)
      exact ⟨f :: fs, .inside hp hfs⟩

/-- There is no way back where frames are linked to older ones. -/
theorem acyclic_of_older (h : ∀ f p, s.Inside f p → p < f) : s.Acyclic where
  parent_lt f p hp := Nat.lt_trans (h f p hp) (lt_of_parent? hp)
  irrefl f hf := by
    have holder : ∀ g, Relation.TransGen s.Inside f g → g < f := by
      intro g hg
      induction hg with
      | single hp => exact h _ _ hp
      | tail _ hp ih => exact Nat.lt_trans (h _ _ hp) ih
    exact Nat.lt_irrefl f (holder f hf)

theorem Linked.acyclic (h : s.Linked) : s.Acyclic := acyclic_of_older fun _ _ => h.parent_older

/-- Where no frame is added, no way back is. -/
theorem Acyclic.grows_of_size (h : s.Acyclic) (hgrows : s.Grows t)
    (hsize : t.frames.size = s.frames.size) : t.Acyclic := by
  have hinside : ∀ f p, t.Inside f p → s.Inside f p := by
    intro f p hp
    have hf : f < s.frames.size := hsize ▸ lt_of_parent? hp
    exact (hgrows.parent? hf).symm.trans hp
  exact ⟨fun f p hp => hsize ▸ h.parent_lt f p (hinside f p hp),
    fun f hf => h.irrefl f (Relation.TransGen.mono hinside f f hf)⟩

theorem chain_of_le (h : s.frames.size ≤ f) : s.chain f = [] := by
  rw [chain]
  cases hsize : s.frames.size with
  | zero => rfl
  | succ n => rw [chainUpTo, Array.getElem?_eq_none h]

/-! ## First owners -/

theorem mem_names_iff : name ∈ s.names f ↔ ∃ v, (s.own f).get? name = some v := by
  rw [names, Bindings.mem_names, owns_iff]

theorem get?_eq_none (h : name ∉ s.names f) : (s.own f).get? name = none := by
  rw [mem_names_iff] at h
  exact Option.eq_none_iff_forall_ne_some.2 fun v hv => h ⟨v, hv⟩

theorem Chain.sees_iff (h : s.Chain f fs) : s.Sees name f e ↔
    ∃ nearer further, fs = nearer ++ e :: further ∧ ∀ g ∈ nearer, name ∉ s.names g := by
  constructor
  · rintro ⟨nearer, further, hchain, hnearer⟩
    exact ⟨nearer, further, h.unique hchain, hnearer⟩
  · rintro ⟨nearer, further, rfl, hnearer⟩
    exact ⟨nearer, further, h, hnearer⟩

theorem Chain.owner?_eq_some_iff (h : s.Chain f fs) :
    s.owner? f name = some o ↔ s.FirstOwner name f o := by
  rw [owner?, h.chain_eq, List.find?_eq_some_iff_append, FirstOwner, h.sees_iff, and_comm]
  simp only [names, Bindings.mem_names, Bool.not_eq_true, Bool.not_eq_eq_eq_not, Bool.not_true]

theorem FirstOwner.owner?_eq (h : s.FirstOwner name f o) : s.owner? f name = some o := by
  obtain ⟨⟨nearer, further, hchain, hnearer⟩, ho⟩ := h
  exact hchain.owner?_eq_some_iff.2 ⟨⟨nearer, further, hchain, hnearer⟩, ho⟩

theorem Acyclic.firstOwner (h : s.Acyclic) (howner : s.owner? f name = some o) :
    s.FirstOwner name f o := by
  have hf : f < s.frames.size := by
    by_contra hle
    have hmem : o ∈ s.chain f := (mem_chain_of_owner? howner).1
    rw [chain_of_le (Nat.not_lt.1 hle)] at hmem
    cases hmem
  obtain ⟨fs, hchain⟩ := h.exists_chain hf
  exact hchain.owner?_eq_some_iff.1 howner

/-! ## What can be seen of a write -/

theorem get?_define_of_ne (h : other ≠ name) :
    ((s.define e name v).own g).get? other = (s.own g).get? other := by
  by_cases hg : g = e
  · by_cases he : e < s.frames.size
    · rw [own_define s he, if_pos hg, Bindings.get?_insert, if_neg h]
    · rw [own_define_of_le s (Nat.not_lt.1 he)]
  · rw [own_define_of_ne s hg]

theorem findSome?_own_congr (h : ∀ g ∈ fs, (t.own g).get? name = (s.own g).get? name) :
    (fs.findSome? fun g => (t.own g).get? name) = fs.findSome? fun g => (s.own g).get? name := by
  induction fs with
  | nil => rfl
  | cons g fs ih =>
    rw [List.findSome?_cons, List.findSome?_cons, h g List.mem_cons_self,
      ih fun g' hg' => h g' (List.mem_cons_of_mem _ hg')]

/-- Past a frame that binds the name nothing matters. -/
theorem findSome?_own_append_congr {nearer further : List FrameId}
    (h : ∀ g ∈ nearer, (t.own g).get? name = (s.own g).get? name)
    (hbound : ∃ g ∈ nearer, name ∈ s.names g) :
    ((nearer ++ further).findSome? fun g => (t.own g).get? name) =
      (nearer ++ further).findSome? fun g => (s.own g).get? name := by
  obtain ⟨g, hg, hname⟩ := hbound
  obtain ⟨v, hv⟩ := mem_names_iff.1 hname
  have hsome : (nearer.findSome? fun g => (s.own g).get? name).isSome := by
    rw [List.findSome?_isSome_iff]
    exact ⟨g, hg, by rw [hv]; rfl⟩
  rw [List.findSome?_append, List.findSome?_append, findSome?_own_congr h,
    Option.or_of_isSome hsome, Option.or_of_isSome hsome]

theorem Sees.lookup?_define (h : s.Sees name f e) (v : Value) :
    (s.define e name v).lookup? f name = some v := by
  obtain ⟨nearer, further, hchain, hnearer⟩ := h
  have he : e < s.frames.size := hchain.lt_size (by simp)
  have hnone : (nearer.findSome? fun g => ((s.define e name v).own g).get? name) = none := by
    rw [List.findSome?_eq_none_iff]
    intro g hg
    have hne : g ≠ e := (List.nodup_append.1 hchain.nodup).2.2 g hg e List.mem_cons_self
    rw [own_define_of_ne s hne]
    exact get?_eq_none (hnearer g hg)
  rw [lookup?, chain_define, hchain.chain_eq, List.findSome?_append, hnone, Option.none_or,
    List.findSome?_cons, own_define s he, if_pos rfl, Bindings.get?_insert, if_pos rfl]

theorem Chain.lookup?_define_of_hidden (h : s.Chain f fs) (hhidden : ¬ s.Sees name f e) (v : Value) :
    (s.define e name v).lookup? f name = s.lookup? f name := by
  have hsame : ∀ g, g ≠ e → ((s.define e name v).own g).get? name = (s.own g).get? name := by
    intro g hg
    rw [own_define_of_ne s hg]
  rw [lookup?, lookup?, chain_define, h.chain_eq]
  by_cases he : e ∈ fs
  · obtain ⟨nearer, further, rfl, hnot⟩ := List.eq_append_cons_of_mem he
    have hbound : ∃ g ∈ nearer, name ∈ s.names g := by
      by_contra hnone
      exact hhidden ⟨nearer, further, h, fun g hg hname => hnone ⟨g, hg, hname⟩⟩
    exact findSome?_own_append_congr (fun g hg => hsame g fun heq => hnot (heq ▸ hg)) hbound
  · exact findSome?_own_congr fun g hg => hsame g fun heq => he (heq ▸ hg)

/-- A write is hidden by a nearer binding, or lies on another branch, or is to another name. -/
theorem Acyclic.lookup?_define (h : s.Acyclic) (hhidden : ¬ (other = name ∧ s.Sees name f e))
    (v : Value) : (s.define e name v).lookup? f other = s.lookup? f other := by
  by_cases hother : other = name
  · subst hother
    have hsees : ¬ s.Sees other f e := fun hsees => hhidden ⟨rfl, hsees⟩
    by_cases hf : f < s.frames.size
    · obtain ⟨fs, hchain⟩ := h.exists_chain hf
      exact hchain.lookup?_define_of_hidden hsees v
    · rw [lookup?, lookup?, chain_define, chain_of_le (Nat.not_lt.1 hf)]
      rfl
  · rw [lookup?, lookup?, chain_define]
    exact findSome?_own_congr fun g _ => get?_define_of_ne hother

theorem Acyclic.rebound_define {s : State} (h : s.store.Acyclic) (e : FrameId) (name : String)
    (v : Value) (c : Console) :
    s.Rebound ⟨s.store.define e name v, c⟩ name v fun f => s.store.Sees name f e := by
  intro f other
  constructor
  · rintro ⟨rfl, hsees⟩
    exact State.meaning_eq_ok_iff.2 (hsees.lookup?_define v)
  · intro hhidden
    exact State.meaning_congr (h.lookup?_define hhidden v)

/-- **Scope laws.** Assigning succeeds where the name means something. Then it yields the value and
overwrites the binding of the first owner, and the name has come to mean the value from all frames that
have the same first owner. Where the name means nothing, that is the error, and nothing changes. A
declaration yields the value too, and after it the name means the value from all frames that see the
declaring one. In either case no other meaning changes. -/
theorem Acyclic.scope_laws {s : State} (h : s.store.Acyclic) (e : FrameId) (name : String)
    (v : Value) :
    ((∃ w t, Action.assign e name v s = .value w t) ↔ ∃ w, s.meaning e name = .ok w) ∧
    (∀ w t, Action.assign e name v s = .value w t →
      w = v ∧
      (∃ o, s.store.FirstOwner name e o ∧ s.store.Overwritten t.store o name v ∧
        s.Rebound t name v fun f => s.store.FirstOwner name f o) ∧
      t.console = s.console) ∧
    ((¬ ∃ w, s.meaning e name = .ok w) →
      Action.assign e name v s = .error (.notDefined name) s) ∧
    ∃ t, (Action.define e name v s : Outcome RunError Value) = .value v t ∧
      s.Rebound t name v fun f => s.store.Sees name f e := by
  have hresolves : (∃ w, s.meaning e name = .ok w) ↔ ∃ o, s.store.owner? e name = some o := by
    rw [exists_owner?_iff, Resolves]
    simp only [State.meaning_eq_ok_iff]
  refine ⟨?_, ?_, ?_, ⟨_, rfl, h.rebound_define e name v _⟩⟩
  · rw [hresolves, Action.assign]
    cases s.store.owner? e name with
    | none => simp
    | some o => simp [Action.define]
  · intro w t ht
    rw [Action.assign] at ht
    cases howner : s.store.owner? e name with
    | none =>
      rw [howner] at ht
      cases ht
    | some o =>
      rw [howner] at ht
      cases ht
      have hfirst : s.store.FirstOwner name e o := h.firstOwner howner
      have howns : (s.store.own o).owns name = true := (mem_chain_of_owner? howner).2
      have hsees : (fun f => s.store.FirstOwner name f o) = fun f => s.store.Sees name f o := by
        funext f
        exact propext (and_iff_left hfirst.2)
      refine ⟨rfl, ⟨o, hfirst, overwritten_define howns v, ?_⟩, rfl⟩
      rw [hsees]
      exact h.rebound_define o name v _
  · intro hmissing
    rw [hresolves] at hmissing
    rw [Action.assign, Option.eq_none_iff_forall_ne_some.2 fun o ho => hmissing ⟨o, ho⟩]

/-- A frame assigns to the frame around it, which hides the outermost one; a frame on another branch
does not see it. -/
theorem scope_laws_of_branches :
    let s : State := ⟨⟨#[⟨.global, none, ⟨[("x", .null)]⟩⟩, ⟨.block, some 0, ⟨[("x", .unit)]⟩⟩,
      ⟨.block, some 1, {}⟩, ⟨.call, some 0, {}⟩], #[]⟩, {}⟩
    let v : Value := .str "new"
    s.store.Acyclic ∧
    (∃ t, Action.assign 2 "x" v s = .value v t ∧
      (∃ o, s.store.FirstOwner "x" 2 o ∧ s.store.Overwritten t.store o "x" v ∧
        s.Rebound t "x" v fun f => s.store.FirstOwner "x" f o) ∧
      t.meaning 1 "x" = .ok v ∧ t.meaning 3 "x" = .ok .null) ∧
    Action.assign 2 "y" v s = .error (.notDefined "y") s ∧
    ∃ t, (Action.define 2 "x" v s : Outcome RunError Value) = .value v t ∧
      s.Rebound t "x" v fun f => s.store.Sees "x" f 2 := by
  intro s v
  have hacyclic : s.store.Acyclic := by
    apply acyclic_of_older
    intro f p hp
    have hf : f < 4 := lt_of_parent? hp
    have holder : ∀ f < 4, ∀ p ∈ s.store.parent? f, p < f := by decide +kernel
    exact holder f hf p hp
  let t : State := ⟨s.store.define 1 "x" v, {}⟩
  have hassign : Action.assign 2 "x" v s = .value v t := by decide +kernel
  have hmissing : s.meaning 2 "y" = .error (.notDefined "y") := by decide +kernel
  refine ⟨hacyclic, ⟨t, hassign, ?_, by decide +kernel, by decide +kernel⟩, ?_, ?_⟩
  · exact ((Acyclic.scope_laws hacyclic 2 "x" v).2.1 v t hassign).2.1
  · refine (Acyclic.scope_laws hacyclic 2 "y" v).2.2.1 ?_
    rintro ⟨w, hw⟩
    rw [hmissing] at hw
    cases hw
  · exact (Acyclic.scope_laws hacyclic 2 "x" v).2.2.2

end Store

end ScopeLisp

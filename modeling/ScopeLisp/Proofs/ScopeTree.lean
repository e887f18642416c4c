import ScopeLisp.Proofs.Chain
import ScopeLisp.Proofs.Session

/-!
# The tree of scopes

In every session the frames form a tree under the global frame, and nothing dangles: links, objects
and closures name frames that exist. The invariant is `Store.Linked`. It says that a frame is linked to
an older one, which settles chains, and that bound values exist, which lets it survive the writes.
-/

namespace ScopeLisp

namespace Store

def Holds (s : Store) : Value → Prop
  | .object f => f < s.frames.size
  | .proc id => id < s.closures.size
  | _ => True

/-- The oldest frame is linked to none and every other to an older one, and no value and no closure
names anything that does not exist. -/
structure Linked (s : Store) : Prop where
  size_pos : 0 < s.frames.size
  root : s.parent? 0 = none
  parent : ∀ f, 0 < f → f < s.frames.size → ∃ p, s.parent? f = some p ∧ p < f
  value : ∀ f name v, (s.own f).get? name = some v → s.Holds v
  scope : ∀ (id : ClosureId) (c : Closure), s.closures[id]? = some c → c.scope < s.frames.size

/-- No value and no closure names anything that does not exist. -/
structure Whole (s : Store) : Prop where
  value : ∀ f name v, (s.own f).get? name = some v → s.Holds v
  scope : ∀ (id : ClosureId) (c : Closure), s.closures[id]? = some c → c.scope < s.frames.size

theorem Holds.of_isPlain {s : Store} {v : Value} (h : v.IsPlain) : s.Holds v := by
  cases v with
  | proc id => exact absurd rfl h.1
  | object f => exact absurd rfl h.2
  | _ => trivial

theorem Holds.grows {s t : Store} {v : Value} (h : s.Holds v) (hg : s.Grows t) : t.Holds v := by
  cases v with
  | proc id => exact Nat.lt_of_lt_of_le h hg.size_closures_le
  | object f => exact Nat.lt_of_lt_of_le h hg.size_le
  | _ => trivial

namespace Whole

variable {s : Store}

theorem define (h : s.Whole) (f : FrameId) (name : String) {v : Value} (hv : s.Holds v) :
    (s.define f name v).Whole where
  value g other w hw := by
    have hgrows : s.Grows (s.define f name v) := .define .refl f name v
    rcases get?_of_define hw with ⟨-, rfl⟩ | hw
    · exact hv.grows hgrows
    · exact (h.value g other w hw).grows hgrows
  scope id c hc := by simpa using h.scope id c hc

theorem addFrame (h : s.Whole) (role : Role) (parent : Option FrameId) :
    (s.addFrame role parent).2.Whole where
  value f name v hv := by
    rw [own_addFrame] at hv
    exact (h.value f name v hv).grows (.addFrame .refl role parent)
  scope id c hc := by
    rw [size_addFrame]
    exact Nat.lt_succ_of_lt (h.scope id c hc)

theorem addClosure (h : s.Whole) {c : Closure} (hc : c.scope < s.frames.size) :
    (s.addClosure c).2.Whole where
  value f name v hv := (h.value f name v hv).grows (.addClosure .refl c)
  scope id c' hc' := by
    rw [closures_addClosure] at hc'
    split at hc'
    · cases hc'
      exact hc
    · exact h.scope id c' hc'

end Whole

namespace Linked

variable {s : Store}

theorem fresh : Store.fresh.Linked where
  size_pos := by rw [size_fresh]; exact Nat.one_pos
  root := parent?_fresh 0
  parent f hpos hlt := by
    rw [size_fresh] at hlt
    omega
  value _ _ _ h := .of_isPlain (isPlain_fresh h)
  scope id c h := by
    rw [closures_fresh] at h
    cases h

theorem whole (h : s.Linked) : s.Whole := ⟨h.value, h.scope⟩

theorem define (h : s.Linked) (f : FrameId) (name : String) {v : Value} (hv : s.Holds v) :
    (s.define f name v).Linked where
  size_pos := by simpa using h.size_pos
  root := by simpa using h.root
  parent g hpos hlt := by simpa using h.parent g hpos (by simpa using hlt)
  value := (h.whole.define f name hv).value
  scope := (h.whole.define f name hv).scope

theorem addFrame (h : s.Linked) (role : Role) {p : FrameId} (hp : p < s.frames.size) :
    (s.addFrame role (some p)).2.Linked where
  size_pos := by simp
  root := by
    rw [parent?_addFrame, if_neg (Nat.ne_of_lt h.size_pos)]
    exact h.root
  parent f hpos hlt := by
    rw [parent?_addFrame]
    split
    · next hf => exact ⟨p, rfl, hf ▸ hp⟩
    · next hf =>
      rw [size_addFrame] at hlt
      exact h.parent f hpos (Nat.lt_of_le_of_ne (Nat.le_of_lt_succ hlt) hf)
  value := (h.whole.addFrame role (some p)).value
  scope := (h.whole.addFrame role (some p)).scope

theorem addClosure (h : s.Linked) {c : Closure} (hc : c.scope < s.frames.size) :
    (s.addClosure c).2.Linked where
  size_pos := h.size_pos
  root := h.root
  parent := h.parent
  value := (h.whole.addClosure hc).value
  scope := (h.whole.addClosure hc).scope

/-- Since a frame is linked to an older one, its chain ends, and it can end nowhere but at the oldest
frame. -/
theorem exists_chain (h : s.Linked) (f : FrameId) (hf : f < s.frames.size) :
    ∃ fs, s.Chain f fs ∧ fs.getLast? = some 0 := by
  induction f using Nat.strongRecOn with
  | ind f ih =>
    rcases Nat.eq_zero_or_pos f with rfl | hpos
    · exact ⟨[0], .top hf h.root, rfl⟩
    · obtain ⟨p, hp, hlt⟩ := h.parent f hpos hf
      obtain ⟨fs, hchain, hlast⟩ := ih p hlt (Nat.lt_trans hlt hf)
      refine ⟨f :: fs, .inside hp hchain, ?_⟩
      rw [List.getLast?_cons_of_ne_nil hchain.ne_nil]
      exact hlast

theorem parent_older (h : s.Linked) {f p : FrameId} (hp : s.parent? f = some p) : p < f := by
  rcases Nat.eq_zero_or_pos f with rfl | hpos
  · rw [h.root] at hp
    cases hp
  · obtain ⟨q, hq, hlt⟩ := h.parent f hpos (lt_of_parent? hp)
    rw [hp] at hq
    cases hq
    exact hlt

theorem parent_lt (h : s.Linked) {f p : FrameId} (hp : s.parent? f = some p) :
    p < s.frames.size :=
  Nat.lt_trans (h.parent_older hp) (lt_of_parent? hp)

theorem chain_eq_cons (h : s.Linked) {f p : FrameId} (hp : s.parent? f = some p) :
    s.chain f = f :: s.chain p := by
  obtain ⟨fs, hchain, -⟩ := h.exists_chain p (h.parent_lt hp)
  rw [(Chain.inside hp hchain).chain_eq, hchain.chain_eq]

end Linked

end Store

/-- Names are only looked up from, and bound in, frames that exist. -/
def Discipline.linked : Discipline where
  Good := Store.Linked
  Step _ _ := True
  Scope s f := f < s.frames.size
  Home s f := f < s.frames.size
  Fit := Store.Holds
  Code _ := True
  step_refl _ := trivial
  step_trans _ _ := trivial
  scope_mono hg _ hf := Nat.lt_of_lt_of_le hf hg.size_le
  home_mono hg _ hf := Nat.lt_of_lt_of_le hf hg.size_le
  fit_mono hg _ hv := hv.grows hg
  scope_of_home hf := hf
  parts _ _ _ _ := trivial
  fit_plain := .of_isPlain
  fit_lookup hs _ hv :=
    let ⟨f, _, hf⟩ := Store.mem_chain_of_lookup? hv
    hs.value f _ _ hf
  home_object _ hf := hf
  closure hs _ hc := ⟨hs.scope _ _ hc, trivial⟩
  define name hs _ hv := ⟨hs.define _ name hv, trivial⟩
  assign hs _ _ hv := ⟨hs.define _ _ hv, trivial⟩
  addFrame {s p} role hs hp _ := by
    have hnew : s.frames.size < (s.addFrame role (some p)).2.frames.size := by simp
    exact ⟨hs.addFrame role hp, trivial, hnew, fun _ => hnew⟩
  addClosure {s d params body env} hs henv _ _ := by
    have hnew : s.closures.size < (s.addClosure ⟨params, body, env⟩).2.closures.size := by simp
    exact ⟨hs.addClosure henv, trivial, hnew⟩

theorem Discipline.total_linked : Discipline.linked.Total := ⟨fun _ hf => hf, fun _ => trivial⟩

/-! ## Sessions -/

theorem Session.Reached.linked {i : Interpreter} {s : Session} (h : Reached i s) :
    s.state.store.Linked :=
  (h.upheld Discipline.total_linked Store.Linked.fresh).1.good

/-- The frames form a tree under `root`, and the searches for names walk down its branches. -/
structure Store.ScopeTree (s : Store) (root : FrameId) : Prop where
  parent_lt : ∀ f p, s.parent? f = some p → p < s.frames.size
  holds : ∀ f name v, (s.own f).get? name = some v → s.Holds v
  scope_lt : ∀ (id : ClosureId) (c : Closure), s.closures[id]? = some c → c.scope < s.frames.size
  /-- A frame is linked to what it was linked to when it was added. -/
  made : ∀ f < s.frames.size, ∃ u role, ({} : Store).Grows u ∧ u.frames.size = f ∧
    (u.addFrame role (s.parent? f)).2.Grows s
  parent?_root : s.parent? root = none
  chain : ∀ f < s.frames.size,
    s.Chain f (s.chain f) ∧ (s.chain f).Nodup ∧ (s.chain f).getLast? = some root
  /-- A search comes to an end and visits no frame twice. It is what looking up and assigning do. -/
  search : ∀ f < s.frames.size, ∀ name, ∃ visited, s.Search name f visited (s.owner? f name) ∧
    visited.Nodup ∧ s.lookup? f name = (s.owner? f name).bind fun g => (s.own g).get? name
  resolves : ∀ f < s.frames.size, ∀ name, (s.own root).owns name = true →
    ∃ v, s.lookup? f name = some v

theorem Store.Linked.scopeTree {s : Store} (h : s.Linked) (hmade : ({} : Store).Grows s) :
    s.ScopeTree 0 where
  parent_lt _ _ hp := h.parent_lt hp
  holds := h.value
  scope_lt := h.scope
  made f hf := hmade.exists_addFrame (Nat.zero_le f) hf
  parent?_root := h.root
  chain f hf := by
    obtain ⟨fs, hchain, hlast⟩ := h.exists_chain f hf
    rw [hchain.chain_eq]
    exact ⟨hchain, hchain.nodup, hlast⟩
  search f hf name := by
    obtain ⟨fs, hchain, -⟩ := h.exists_chain f hf
    obtain ⟨visited, hsearch, hprefix⟩ := hchain.search name
    have howner : s.owner? f name = fs.find? fun g => (s.own g).owns name := by
      rw [Store.owner?, hchain.chain_eq]
    rw [← howner] at hsearch
    exact ⟨visited, hsearch, hchain.nodup.sublist hprefix.sublist,
      s.lookup?_eq_bind_owner? f name⟩
  resolves f hf name hroot := by
    obtain ⟨fs, hchain, hlast⟩ := h.exists_chain f hf
    obtain ⟨v, hv⟩ := Store.owns_iff.1 hroot
    have hmem : 0 ∈ s.chain f := by
      rw [hchain.chain_eq]
      exact List.mem_of_getLast? hlast
    have hsome : (s.lookup? f name).isSome = true := by
      rw [Store.lookup?, List.findSome?_isSome_iff]
      exact ⟨0, hmem, by rw [hv]; rfl⟩
    exact Option.isSome_iff_exists.1 hsome

theorem Store.grows_fresh : ({} : Store).Grows Store.fresh :=
  Grows.trans (.addFrame .refl .global none) grows_defineAll

/-- **Scopes form a tree.** In every session nothing dangles, the frames are a tree under the global
frame in which every search for a name comes to an end, and no link ever changes. -/
theorem Session.Reached.tree_of_scopes {i : Interpreter} {t : Session} (h : Session.Reached i t) :
    t.state.store.ScopeTree i.globalFrame ∧
      (∀ v ∈ t.answers, t.state.store.Holds v) ∧
      ∀ u, Session.Later i t u → ∀ f < t.state.store.frames.size,
        u.state.store.parent? f = t.state.store.parent? f := by
  obtain ⟨hupheld, hleads⟩ := h.upheld Discipline.total_linked Store.Linked.fresh
  refine ⟨?_, hupheld.fit, fun u hlater f hf => ?_⟩
  · rw [h.globalFrame_eq]
    exact hupheld.good.scopeTree (Store.grows_fresh.trans hleads.grows)
  · exact (hlater.upheld Discipline.total_linked hupheld).2.grows.parent? hf

/-- A constructor keeps its object in the object itself and then fails. -/
theorem Session.tree_of_scopes_after_failed_new : ∃ t, Session.Reached ⟨0⟩ t ∧
    t.state.store.chain 3 = [3, 1, 0] ∧ t.state.store.ScopeTree 0 ∧
    (∀ v ∈ t.answers, t.state.store.Holds v) ∧
    ∀ u, Session.Later ⟨0⟩ t u → ∀ f < t.state.store.frames.size,
      u.state.store.parent? f = t.state.store.parent? f := by
  let code := "(class A null (def constructor (me) (begin (set (prop me self) me) nope))) (new A)"
  have hchain : (Interpreter.run 50 ⟨0⟩ code ⟨Store.fresh, {}⟩).after?.map
      (fun s => s.store.chain 3) = some [3, 1, 0] := by
    rw [show code = String.ofList _ from by rfl, Interpreter.run, Datum.readText,
      Token.scan?_ofList]
    decide +kernel
  obtain ⟨s, hrun, hs⟩ := Option.map_eq_some_iff.1 hchain
  obtain ⟨answers, hreached⟩ := Session.reached_of_run hrun
  exact ⟨⟨s, answers⟩, hreached, hs, Session.Reached.tree_of_scopes hreached⟩

end ScopeLisp

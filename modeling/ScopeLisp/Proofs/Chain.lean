import Mathlib.Data.List.Nodup
import Mathlib.Data.List.Perm.Subperm
import ScopeLisp.Proofs.Growth

/-!
# Chains of frames

`Store.Chain s f fs` says that `fs` is `f`, the frame around it, and so on, up to a frame that is in
no other. The store computes chains with a bound, the number of its frames. The bound is never felt:
a chain repeats no frame (`Chain.nodup`), so it is no longer than that (`Chain.chain_eq`).
`Store.Search` is the search for a name as it walks outwards, with the frames that it visits; it comes
to an end wherever there is a chain (`Chain.search`).
-/

namespace ScopeLisp

namespace Store

/-- `fs` are the frames from `f` outwards, up to one that is in no other. -/
inductive Chain (s : Store) : FrameId → List FrameId → Prop
  | top {f : FrameId} (hf : f < s.frames.size) (hp : s.parent? f = none) : Chain s f [f]
  | inside {f p : FrameId} {fs : List FrameId} (hp : s.parent? f = some p) (h : Chain s p fs) :
      Chain s f (f :: fs)

/-- The search for `name` from `f` outwards visits the frames `fs`, each from the one before, and ends
with the one that binds the name, if any does. -/
inductive Search (s : Store) (name : String) : FrameId → List FrameId → Option FrameId → Prop
  | found {f : FrameId} (ho : (s.own f).owns name = true) : Search s name f [f] (some f)
  | outward {f p : FrameId} {fs : List FrameId} {r : Option FrameId}
      (ho : (s.own f).owns name = false) (hp : s.parent? f = some p) (h : Search s name p fs r) :
      Search s name f (f :: fs) r
  | missing {f : FrameId} (ho : (s.own f).owns name = false) (hp : s.parent? f = none) :
      Search s name f [f] none

namespace Chain

variable {s : Store} {f g : FrameId} {fs gs : List FrameId}

theorem ne_nil (h : s.Chain f fs) : fs ≠ [] := by
  cases h <;> exact List.cons_ne_nil _ _

theorem unique (h : s.Chain f fs) (h' : s.Chain f gs) : fs = gs := by
  induction h generalizing gs with
  | top _ hp =>
    cases h' with
    | top => rfl
    | inside hp' _ =>
      rw [hp] at hp'
      cases hp'
  | inside hp _ ih =>
    cases h' with
    | top _ hp' =>
      rw [hp] at hp'
      cases hp'
    | inside hp' h' =>
      rw [hp] at hp'
      cases hp'
      rw [ih h']

/-- From a frame of a chain on, the chain is that frame's own. -/
theorem of_mem (h : s.Chain f fs) (hg : g ∈ fs) : ∃ gs, s.Chain g gs ∧ gs <:+ fs := by
  induction h with
  | top hf hp =>
    rw [List.mem_singleton] at hg
    subst hg
    exact ⟨_, .top hf hp, List.suffix_refl _⟩
  | @inside f p fs hp h ih =>
    rcases List.mem_cons.1 hg with rfl | hg
    · exact ⟨_, .inside hp h, List.suffix_refl _⟩
    · obtain ⟨gs, hgs, hsuffix⟩ := ih hg
      exact ⟨gs, hgs, hsuffix.trans (List.suffix_cons f fs)⟩

/-- A frame that came twice would have two chains, one longer than the other. -/
theorem nodup (h : s.Chain f fs) : fs.Nodup := by
  induction h with
  | top => exact List.nodup_singleton _
  | @inside f p fs hp h ih =>
    refine List.nodup_cons.2 ⟨fun hmem => ?_, ih⟩
    obtain ⟨gs, hgs, hsuffix⟩ := h.of_mem hmem
    have heq : gs = f :: fs := hgs.unique (.inside hp h)
    have hlen : gs.length ≤ fs.length := hsuffix.length_le
    rw [heq, List.length_cons] at hlen
    omega

theorem lt_size (h : s.Chain f fs) (hg : g ∈ fs) : g < s.frames.size := by
  induction h with
  | top hf _ =>
    rw [List.mem_singleton] at hg
    exact hg ▸ hf
  | inside hp _ ih =>
    rcases List.mem_cons.1 hg with rfl | hg
    · exact lt_of_parent? hp
    · exact ih hg

theorem length_le (h : s.Chain f fs) : fs.length ≤ s.frames.size := by
  have hsub : fs ⊆ List.range s.frames.size := fun g hg => List.mem_range.2 (h.lt_size hg)
  simpa using (h.nodup.subperm hsub).length_le

theorem chainUpTo_eq (h : s.Chain f fs) {limit : Nat} (hlimit : fs.length ≤ limit) :
    s.chainUpTo limit f = fs := by
  induction h generalizing limit with
  | @top f hf hp =>
    obtain ⟨limit, rfl⟩ : ∃ n, limit = n + 1 := ⟨limit - 1, by simp at hlimit; omega⟩
    have hparent : s.frames[f].parent = none := by
      simpa [Store.parent?, Array.getElem?_eq_getElem hf] using hp
    rw [chainUpTo, Array.getElem?_eq_getElem hf]
    simp only [hparent]
  | @inside f p fs hp h ih =>
    obtain ⟨limit, rfl⟩ : ∃ n, limit = n + 1 := ⟨limit - 1, by simp at hlimit; omega⟩
    have hf : f < s.frames.size := lt_of_parent? hp
    have hparent : s.frames[f].parent = some p := by
      simpa [Store.parent?, Array.getElem?_eq_getElem hf] using hp
    rw [chainUpTo, Array.getElem?_eq_getElem hf]
    simp only [hparent]
    rw [ih (by simpa using hlimit)]

/-- The computed chain is the chain. -/
theorem chain_eq (h : s.Chain f fs) : s.chain f = fs := h.chainUpTo_eq h.length_le

/-- Growth leaves chains as they are. -/
theorem grows {t : Store} (h : s.Chain f fs) (hg : s.Grows t) : t.Chain f fs := by
  induction h with
  | top hf hp => exact .top (Nat.lt_of_lt_of_le hf hg.size_le) (by rw [hg.parent? hf, hp])
  | inside hp _ ih => exact .inside (by rw [hg.parent? (lt_of_parent? hp), hp]) ih

/-- A search walks along the chain and stops at the first frame that binds the name. -/
theorem search (h : s.Chain f fs) (name : String) :
    ∃ visited, s.Search name f visited (fs.find? fun g => (s.own g).owns name) ∧
      visited <+: fs := by
  induction h with
  | @top f _ hp =>
    refine ⟨[f], ?_, List.prefix_refl _⟩
    cases ho : (s.own f).owns name with
    | true =>
      rw [List.find?_cons_of_pos (by simpa using ho)]
      exact .found ho
    | false =>
      rw [List.find?_cons_of_neg (by simpa using ho)]
      exact .missing ho hp
  | @inside f p fs hp _ ih =>
    cases ho : (s.own f).owns name with
    | true =>
      rw [List.find?_cons_of_pos (by simpa using ho)]
      exact ⟨[f], .found ho, by simp⟩
    | false =>
      rw [List.find?_cons_of_neg (by simpa using ho)]
      obtain ⟨visited, hsearch, hprefix⟩ := ih
      exact ⟨f :: visited, .outward ho hp hsearch, List.cons_prefix_cons.2 ⟨rfl, hprefix⟩⟩

end Chain

end Store

end ScopeLisp

import ScopeLisp.Proofs.Equality
import ScopeLisp.Proofs.Sources

/-!
# Identity

Closures and objects are equal exactly if they have one source: they come from one evaluation of a
lambda, a class or a new, however they were handed around since (`Session.Reached.equality`). Whatever
two such evaluations made is never equal.
-/

namespace ScopeLisp

namespace Ledger

variable {l : Ledger}

/-- Only closures and objects are made. -/
theorem Makes.not_isPlain {n : Nat} {v : Value} (h : l.Makes n v.kind) : ¬ v.IsPlain := by
  obtain ⟨_, form, -, -, hk⟩ := h
  rintro ⟨hproc, hobject⟩
  cases form <;> first
    | exact hproc (Option.some.inj hk).symm
    | exact hobject (Option.some.inj hk).symm
    | cases hk

/-- The values that the account tells of: those that were made, and those that evaluations came to. -/
def Knows (l : Ledger) (v : Sourced) : Prop := v ∈ l.made ∨ ∃ n, (n, v) ∈ l.ended

/-- Equality tells closures and objects in `known` apart as their sources do, and the sources are
evaluations of forms that make such. -/
structure Distinguishes (l : Ledger) (known : Sourced → Prop) : Prop where
  source : ∀ v, known v → v.value.IsPlain ∧ v.source = none ∨
    ¬ v.value.IsPlain ∧ ∃ n, v.source = some n ∧ l.Makes n v.value.kind
  equal_iff : ∀ v w, known v → known w → ¬ v.value.IsPlain → ¬ w.value.IsPlain →
    (v.value.equal w.value = true ↔ v.source = w.source)
  /-- What the evaluation of such a form came to, it made. -/
  ended : ∀ n v k, (n, v) ∈ l.ended → l.Makes n k → v.source = some n ∧ v.value.kind = k
  apart : ∀ m n v w j k, (m, v) ∈ l.ended → (n, w) ∈ l.ended → l.Makes m j → l.Makes n k →
    m ≠ n → v.value.equal w.value = false

theorem Sound.source (h : l.Sound) {v : Sourced} (hv : l.Backs v) :
    v.value.IsPlain ∧ v.source = none ∨
      ¬ v.value.IsPlain ∧ ∃ n, v.source = some n ∧ l.Makes n v.value.kind := by
  rcases hv with hv | hv
  · exact .inl hv
  · obtain ⟨n, hn, hmakes⟩ := h.maker v hv
    exact .inr ⟨hmakes.not_isPlain, n, hn, hmakes⟩

theorem Sound.equal_iff (h : l.Sound) {v w : Sourced} (hv : l.Backs v) (hw : l.Backs w)
    (hvp : ¬ v.value.IsPlain) (hwp : ¬ w.value.IsPlain) :
    v.value.equal w.value = true ↔ v.source = w.source := by
  have hkind : v.value.kind ≠ .number := by
    intro hk
    exact hvp ⟨by rw [hk]; decide, by rw [hk]; decide⟩
  rw [Value.equal_iff hkind]
  exact h.distinct v (hv.resolve_left fun hv => hvp hv.1) w (hw.resolve_left fun hw => hwp hw.1)

theorem Sound.made_of_ended (h : l.Sound) {n : Nat} {v : Sourced} {k : Kind}
    (hv : (n, v) ∈ l.ended) (hn : l.Makes n k) : v.source = some n ∧ v.value.kind = k := by
  obtain ⟨hbacks, -, hsource⟩ := h.ended _ hv
  have hn' := hsource k hn
  rcases h.source hbacks with ⟨-, hnone⟩ | ⟨-, m, hm, hmakes⟩
  · cases hnone.symm.trans hn'
  · cases hm.symm.trans hn'
    obtain ⟨d, form, hd, hform, hk⟩ := hn
    exact ⟨hn', Option.some.inj ((hmakes.makes? hd hform).symm.trans hk)⟩

/-- An account that does not contradict itself tells apart whatever it backs. -/
theorem Sound.distinguishes (h : l.Sound) {known : Sourced → Prop}
    (hknown : ∀ v, known v → l.Backs v) : l.Distinguishes known where
  source v hv := h.source (hknown v hv)
  equal_iff v w hv hw := h.equal_iff (hknown v hv) (hknown w hw)
  ended n v k hv hn := h.made_of_ended hv hn
  apart m n v w j k hv hw hm hn hne := by
    obtain ⟨hvs, hvk⟩ := h.made_of_ended hv hm
    obtain ⟨hws, hwk⟩ := h.made_of_ended hw hn
    have hequal := h.equal_iff (h.ended _ hv).1 (h.ended _ hw).1 (Makes.not_isPlain (hvk ▸ hm))
      (Makes.not_isPlain (hwk ▸ hn))
    refine Bool.eq_false_iff.2 fun heq => hne ?_
    exact Option.some.inj (hvs.symm.trans ((hequal.1 heq).trans hws))

theorem Sound.backs_of_knows (h : l.Sound) {v : Sourced} (hv : l.Knows v) : l.Backs v := by
  rcases hv with hv | ⟨n, hv⟩
  · exact .inr hv
  · exact (h.ended _ hv).1

end Ledger

/-- However an action comes out, the account is sound. -/
theorem Tracked.Keeps.sound {ε α : Type} {p : List Nat} {l : Ledger} {s : Store}
    {x : Tracked ε α} {Q : Ledger → α → Prop} (h : Keeps p l s x Q) (c : Console) :
    (x l ⟨s, c⟩).2.Sound := by
  have hc := h c
  rcases hr : x l ⟨s, c⟩ with ⟨a | e | _, m⟩ <;> rw [hr] at hc
  · exact hc.1.good.faithful.toSound
  · exact hc.good.faithful.toSound
  · exact hc

namespace TrackedSession

variable {i : Interpreter} {s t : TrackedSession}

/-- The values there are: those the account tells of, those that are bound in some frame, and those
that the host was given. -/
inductive Knows (s : TrackedSession) : Sourced → Prop
  | recorded {v : Sourced} (h : s.ledger.Knows v) : Knows s v
  | bound {f : FrameId} {name : String} {v : Value}
      (h : (s.state.store.own f).get? name = some v) : Knows s ⟨v, s.ledger.bound f name⟩
  | answered {v : Sourced} (h : v ∈ s.answers) : Knows s v

/-- The account of the session is right. -/
structure Accounted (s : TrackedSession) : Prop where
  good : s.ledger.Good [] s.state.store
  answers : ∀ v ∈ s.answers, s.ledger.Backs v

theorem Next.accounted (hs : s.Accounted) (h : Next i s t) : t.Accounted := by
  cases h with
  | @answered fuel request v u l hframe hrun =>
    have hkeeps := Tracked.Keeps.serve (i := i) fuel request hs.good s.state.console
    rw [hrun] at hkeeps
    obtain ⟨hleads, hv⟩ := hkeeps
    exact ⟨hleads.good, List.forall_mem_cons.2
      ⟨hv, fun w hw => (hs.answers w hw).mono hleads.made⟩⟩
  | @failed fuel request e u l hframe hrun =>
    have hkeeps := Tracked.Keeps.serve (i := i) fuel request hs.good s.state.console
    rw [hrun] at hkeeps
    have hleads : s.ledger.Leads [] l u.store := hkeeps
    exact ⟨hleads.good, fun w hw => (hs.answers w hw).mono hleads.made⟩

theorem Reached.accounted (h : Reached i s) : s.Accounted := by
  obtain ⟨state, hstart, hlater⟩ := h
  induction hlater with
  | refl =>
    obtain ⟨-, hstore, -⟩ := hstart.eq
    have hstore : state.store = Store.fresh := hstore
    exact ⟨⟨hstore ▸ Ledger.Faithful.fresh, nofun⟩, nofun⟩
  | tail _ hnext ih => exact hnext.accounted ih

theorem Accounted.backs (hs : s.Accounted) {v : Sourced} (hv : s.Knows v) : s.ledger.Backs v := by
  cases hv with
  | recorded h => exact hs.good.faithful.toSound.backs_of_knows h
  | bound h => exact hs.good.faithful.bound _ _ _ h
  | answered h => exact hs.answers v h

end TrackedSession

/-- **Equality is a partial equivalence that respects identity.** In every session it is symmetric and
transitive, all values but one equal themselves, and equal values are alike in kind, truth and text.
The session can be tracked, and however it is tracked, closures and objects are equal exactly if they
come from one evaluation of a lambda, a class or a new. So it is also within all further requests, for
all that was made and come to before they end, fail or are cut off. -/
theorem Session.Reached.equality {i : Interpreter} {s : Session} (h : Session.Reached i s) :
    s.state.store.Equates ∧ (∃ t, TrackedSession.Reached i t ∧ t.session = s) ∧
      ∀ t, TrackedSession.Reached i t → t.session = s →
        t.ledger.Distinguishes t.Knows ∧
        ∀ fuel request l, (Tracked.serve fuel i request t.ledger t.state).2 = l →
          l.Distinguishes l.Knows := by
  refine ⟨s.state.store.equates, Session.reached_iff_exists_tracked.1 h, fun t ht _ => ?_⟩
  have hs := ht.accounted
  refine ⟨hs.good.faithful.toSound.distinguishes fun v hv => hs.backs hv, ?_⟩
  rintro fuel request _ rfl
  have hsound := (Tracked.Keeps.serve (i := i) fuel request hs.good).sound t.state.console
  exact hsound.distinguishes fun v hv => hsound.backs_of_knows hv

/-- A closure and an instance that were handed through a call are equal to themselves. Another closure
of the same code and scope is not equal, and another instance of the same class is not. -/
theorem Session.equality_of_copies : ∃ s t, Session.Reached ⟨0⟩ s ∧ TrackedSession.Reached ⟨0⟩ t ∧
    t.session = s ∧ s.state.store.Equates ∧ t.ledger.Distinguishes t.Knows ∧
    s.state.store.closures[0]? = s.state.store.closures[1]? ∧
    t.ledger.bound 0 "f" = t.ledger.bound 0 "g" ∧ t.ledger.bound 0 "f" ≠ t.ledger.bound 0 "h" ∧
    t.ledger.bound 0 "a" = t.ledger.bound 0 "c" ∧ t.ledger.bound 0 "a" ≠ t.ledger.bound 0 "b" := by
  let code := "(var f (lambda (x) x)) (var h (lambda (x) x)) (var g (f f))
    (class A null (var constructor f)) (var a (new A)) (var b (new A)) (var c (f a))"
  let seen (s : Store) := (["f", "g", "h", "a", "b", "c"].map (s.own 0).get?,
    decide (s.closures[0]? = s.closures[1]?))
  have hfacts : (Interpreter.run 20 ⟨0⟩ code ⟨Store.fresh, {}⟩).after?.map (seen ·.store) =
      some ([some (.proc 0), some (.proc 0), some (.proc 1), some (.object 3), some (.object 5),
        some (.object 3)], true) := by
    rw [show code = String.ofList _ from by rfl, Interpreter.run, Datum.readText,
      Token.scan?_ofList]
    decide +kernel
  obtain ⟨s, hrun, hs⟩ := Option.map_eq_some_iff.1 hfacts
  obtain ⟨hbound, hcode⟩ := Prod.mk.inj hs
  simp only [List.map_cons, List.cons.injEq] at hbound
  obtain ⟨hf, hg, hh, ha, hb, hc, -⟩ := hbound
  obtain ⟨answers, hreached⟩ := Session.reached_of_run hrun
  obtain ⟨hequates, ⟨t, ht, hts⟩, htracked⟩ := Session.Reached.equality hreached
  have hdist := (htracked t ht hts).1
  have hstore : t.state.store = s.store := congrArg (fun u => u.state.store) hts
  have iff : ∀ {x y : String} {v w : Value}, (s.store.own 0).get? x = some v →
      (s.store.own 0).get? y = some w → ¬ v.IsPlain → ¬ w.IsPlain →
      (v.equal w = true ↔ t.ledger.bound 0 x = t.ledger.bound 0 y) := fun hv hw =>
    hdist.equal_iff _ _ (.bound (hstore ▸ hv)) (.bound (hstore ▸ hw))
  have hproc : ∀ id, ¬ (Value.proc id).IsPlain := fun _ h => h.1 rfl
  have hobject : ∀ f, ¬ (Value.object f).IsPlain := fun _ h => h.2 rfl
  refine ⟨⟨s, answers⟩, t, hreached, ht, hts, hequates, hdist, of_decide_eq_true hcode, ?_, ?_, ?_, ?_⟩
  · exact (iff hf hg (hproc 0) (hproc 0)).1 (by decide)
  · exact (iff hf hh (hproc 0) (hproc 1)).not.1 (by decide)
  · exact (iff ha hc (hobject 3) (hobject 3)).1 (by decide)
  · exact (iff ha hb (hobject 3) (hobject 5)).not.1 (by decide)

end ScopeLisp

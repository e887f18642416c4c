import ScopeLisp.Proofs.Answers

/-!
# Interpreters side by side

Two interpreters share the store. `Twins.Apart` is the invariant that keeps them apart: beside the
store in which both have run there is one for each in which only that one has, alike to the first as
far as the interpreter can see, and no frame is seen by both. A run of the one leaves the frames of
the other alone (`Apart.step`). So what an interpreter answers to a sequence of calls is what it
would answer if the calls of the other were left out (`Call.answers_filter`).
-/

namespace ScopeLisp

/-- A program for an interpreter, and what its run may take. -/
structure Call where
  interpreter : Interpreter
  code : String
  fuel : Nat

namespace Call

def answer? (c : Call) (s : State) : Option (Answer × State) :=
  c.interpreter.answer? c.fuel c.code s

/-- Makes the calls in turn, if all of them come to an end, and notes who answered what. -/
def answers? : List Call → State → Option (List (Interpreter × Answer) × State)
  | [], s => some ([], s)
  | c :: cs, s => do
    let (a, t) ← c.answer? s
    let (log, u) ← answers? cs t
    return ((c.interpreter, a) :: log, u)

variable {c : Call} {cs : List Call} {log : List (Interpreter × Answer)} {s t u : State}
  {a : Answer}

theorem answers?_cons (h : c.answer? s = some (a, t)) (hcs : answers? cs t = some (log, u)) :
    answers? (c :: cs) s = some ((c.interpreter, a) :: log, u) := by
  rw [answers?, h]
  show (answers? cs t).bind _ = _
  rw [hcs]
  rfl

theorem exists_of_answers?_cons (h : answers? (c :: cs) s = some (log, u)) :
    ∃ a t rest, c.answer? s = some (a, t) ∧ answers? cs t = some (rest, u) ∧
      log = (c.interpreter, a) :: rest := by
  rw [answers?] at h
  obtain ⟨⟨a, t⟩, ha, h⟩ := Option.bind_eq_some_iff.1 h
  obtain ⟨⟨rest, v⟩, hrest, h⟩ := Option.bind_eq_some_iff.1 h
  cases h
  exact ⟨a, t, rest, ha, hrest, rfl⟩

end Call

namespace Twins

/-- The same store with two others, and no frame of it has twins in both of them. -/
structure Apart (w n : Twins) : Prop where
  left_eq : w.left = n.left
  first : w.Alike fun _ => True
  second : n.Alike fun _ => True
  disjoint : ∀ {f g g'}, w.frame f g → ¬ n.frame f g'

variable {w w' n : Twins}

theorem Apart.symm (h : Apart w n) : Apart n w where
  left_eq := h.left_eq.symm
  first := h.second
  second := h.first
  disjoint hn hw := h.disjoint hw hn

theorem Apart.step (h : Apart w n) (hw : w.Leads (fun _ => True) w') :
    Apart w' { n with left := w'.left } where
  left_eq := rfl
  first := hw.alike
  second := by
    refine h.second.of_grows (h.left_eq ▸ hw.grows) fun {f g} hf => ?_
    rw [← h.left_eq]
    refine hw.untouched f ?_ fun g' hf' => h.disjoint hf' hf
    rw [h.left_eq]
    exact (h.second.lt hf).1
  disjoint {f g g'} hf hf' := by
    rcases hw.new hf with hf | hle
    · exact h.disjoint hf hf'
    · have hlt := (h.second.lt hf').1
      rw [h.left_eq] at hle
      exact absurd hlt (Nat.not_lt.2 hle)

theorem apart_root {s : Store} {f g : FrameId} (hf : s.Pristine f) (hg : s.Pristine g)
    (hne : f ≠ g) : Apart (root s s f True) (root s s g True) where
  left_eq := rfl
  first := alike_root hf .refl (fun _ _ => rfl) fun _ => rfl
  second := alike_root hg .refl (fun _ _ => rfl) fun _ => rfl
  disjoint hw hn := hne (hw.1.symm.trans hn.1)

end Twins

namespace Call

variable {i j : Interpreter} {calls : List Call} {log : List (Interpreter × Answer)}

/-- What is answered on the left is answered on the right. -/
theorem exists_answer_of_twins {w : Twins} (hw : w.Alike fun _ => True)
    (hi : w.frame i.globalFrame i.globalFrame) {fuel : Nat} {code : String} {c d : Console}
    (hdebug : c.debug = d.debug) {a : Answer} {s : Store} {c' : Console}
    (h : i.answer? fuel code ⟨w.left, c⟩ = some (a, ⟨s, c'⟩)) :
    ∃ w' d', w.Leads (fun _ => True) w' ∧ s = w'.left ∧ Console.Written c d c' d' ∧
      i.answer? fuel code ⟨w.right, d⟩ = some (a, ⟨w'.right, d'⟩) := by
  have hrun : Twins.Agree _ w (i.run fuel code) (i.run fuel code) _ :=
    Twins.run_agree trivial fuel hw hi fun _ _ _ _ => trivial
  have hrel := Twins.rel_answer? hrun hdebug
  rw [h] at hrel
  generalize i.answer? fuel code ⟨w.right, d⟩ = y at hrel ⊢
  cases hrel with
  | @some _ y hsame =>
    obtain ⟨b, t, d'⟩ := y
    obtain ⟨heq, hc, w', hw', hleft, hright⟩ := hsame
    cases heq
    cases hright
    exact ⟨w', d', hw', hleft, hc, rfl⟩

/-- Calls of `i` and `j` in the store of both, and those of `i` alone in the store of `i`. -/
theorem answers_filter {w n : Twins} (h : Twins.Apart w n)
    (hi : w.object i.globalFrame i.globalFrame) (hj : n.frame j.globalFrame j.globalFrame)
    (hcalls : ∀ c ∈ calls, c.interpreter = i ∨ c.interpreter = j) {c d : Console}
    (hdebug : c.debug = d.debug) {t : State} (hrun : answers? calls ⟨w.left, c⟩ = some (log, t)) :
    ∃ t', answers? (calls.filter fun c => c.interpreter = i) ⟨w.right, d⟩ =
        some (log.filter fun e => e.1 = i, t') ∧
      t'.store.names i.globalFrame = t.store.names i.globalFrame := by
  have hframe := h.first.frame_of_object hi
  induction calls generalizing w n c d log with
  | nil =>
    cases hrun
    exact ⟨⟨w.right, d⟩, rfl, (h.first.names hi).symm⟩
  | cons call calls ih =>
    have hrest := fun c hc => hcalls c (List.mem_cons_of_mem _ hc)
    obtain ⟨a, ⟨s, c'⟩, rest, ha, hrun, rfl⟩ := exists_of_answers?_cons hrun
    rcases hcalls call List.mem_cons_self with heq | heq
    -- `i` answers in both stores.
    · rw [answer?, heq] at ha
      obtain ⟨w', d', hw', rfl, hc, hright⟩ := exists_answer_of_twins h.first hframe hdebug ha
      obtain ⟨t', ht', hnames⟩ := ih (h.step hw') (hw'.sub.object hi) hj hrest
        (hc.debug_eq hdebug) hrun (hw'.sub.frame hframe)
      refine ⟨t', ?_, hnames⟩
      rw [List.filter_cons_of_pos (by simpa using heq),
        List.filter_cons_of_pos (by simpa using heq)]
      rw [← heq] at hright
      exact answers?_cons hright ht'
    -- `j` answers in the store of both only, and leaves what `i` sees of it alone.
    · have hne : ¬ call.interpreter = i := by
        rintro rfl
        exact h.disjoint hframe (heq ▸ hj)
      rw [answer?, heq, h.left_eq] at ha
      obtain ⟨n', _, hn', rfl, hc, -⟩ := exists_answer_of_twins h.second hj hdebug ha
      obtain ⟨t', ht', hnames⟩ := ih (h.symm.step hn').symm hi (hn'.sub.frame hj) hrest
        (hc.debug_left.trans hdebug) hrun hframe
      refine ⟨t', ?_, hnames⟩
      rw [List.filter_cons_of_neg (by simpa using hne),
        List.filter_cons_of_neg (by simpa using hne)]
      exact ht'

/-- **Interpreters do not interfere.** Of two new interpreters that are called in any order, with
calls that come to an end, each answers as it would if the calls of the other were left out, and
binds the same names in its global frame. -/
theorem answers_of_each {ε : Type} {s₀ s₁ s t : State}
    (hi : (Interpreter.fresh s₀ : Outcome ε Interpreter) = .value i s₁)
    (hj : (Interpreter.fresh s₁ : Outcome ε Interpreter) = .value j s)
    (hcalls : ∀ c ∈ calls, c.interpreter = i ∨ c.interpreter = j)
    (hrun : answers? calls s = some (log, t)) :
    ∀ k, k = i ∨ k = j →
      ∃ t', answers? (calls.filter fun c => c.interpreter = k) s =
          some (log.filter fun e => e.1 = k, t') ∧
        t'.store.names k.globalFrame = t.store.names k.globalFrame := by
  obtain ⟨hi, hne⟩ := Interpreter.pristine_of_old hj (Interpreter.pristine_of_fresh hi)
  have hapart := Twins.apart_root hi (Interpreter.pristine_of_fresh hj) hne
  rintro k (rfl | rfl)
  · exact answers_filter hapart ⟨trivial, rfl, rfl⟩ ⟨rfl, rfl⟩ hcalls rfl hrun
  · exact answers_filter hapart.symm ⟨trivial, rfl, rfl⟩ ⟨rfl, rfl⟩
      (fun c hc => (hcalls c hc).symm) rfl hrun

/-- Both interpreters have a class of the same name, and the second one fails in the end. -/
theorem answers_of_first_alone :
    let i : Interpreter := ⟨0⟩
    let j : Interpreter := ⟨1⟩
    let s : State := ⟨Store.fresh.withGlobal, {}⟩
    let calls : List Call :=
      [⟨i, "(class A null (def constructor (self) (set (prop self tag) \"one\")))", 20⟩,
        ⟨j, "(class A null (def constructor (self) null)) (var a (new A))", 20⟩,
        ⟨j, "(print a) (prop a tag)", 20⟩, ⟨i, "(print (new A))", 20⟩]
    let first : Answer := ⟨.ok ⟨.object, "<env constructor>", true⟩, "", ""⟩
    let last : Answer := ⟨.ok ⟨.unit, "<unit>", false⟩, "<env tag>\n", ""⟩
    (answers? calls s).map Prod.fst =
        some [(i, first), (j, ⟨.ok ⟨.object, "<env >", true⟩, "", ""⟩),
          (j, ⟨.error (.run (.notDefined "tag")), "<env >\n", ""⟩), (i, last)] ∧
      (answers? (calls.filter fun c => c.interpreter = i) s).map Prod.fst =
        some [(i, first), (i, last)] := by
  intro i j s calls first last
  have hi : (Interpreter.fresh ⟨{}, {}⟩ : Outcome Empty Interpreter) =
      .value i ⟨Store.fresh, {}⟩ := Interpreter.fresh_eq _
  have hj : (Interpreter.fresh ⟨Store.fresh, {}⟩ : Outcome Empty Interpreter) = .value j s := by
    decide +kernel
  have hcalls : ∀ c ∈ calls, c.interpreter = i ∨ c.interpreter = j := by decide
  have hlog : (answers? calls s).map Prod.fst = some [(i, first),
      (j, ⟨.ok ⟨.object, "<env >", true⟩, "", ""⟩),
      (j, ⟨.error (.run (.notDefined "tag")), "<env >\n", ""⟩), (i, last)] := by decide +kernel
  refine ⟨hlog, ?_⟩
  obtain ⟨⟨log, t⟩, hrun, rfl⟩ := Option.map_eq_some_iff.1 hlog
  obtain ⟨t', ht', -⟩ := answers_of_each hi hj hcalls hrun i (.inl rfl)
  rw [ht']
  rfl

end Call

end ScopeLisp

import ScopeLisp.Proofs.Passes

/-!
# Calls

What an action does is told as if it were done alone: from a store and a blank console to a result,
another store and an output (`Action.Makes`). Since consoles are only written, a sequence of actions
makes what its parts make one after the other (`Action.makes_bind_iff`), and so does a call that is
replied to (`Action.makes_reply_iff`).
-/

namespace ScopeLisp

/-- What a call has printed, and what it has logged. -/
structure Output where
  printed : String := ""
  logged : String := ""
deriving DecidableEq

namespace Output

instance : Append Output := ⟨fun w w' => ⟨w.printed ++ w'.printed, w.logged ++ w'.logged⟩⟩

/-- A line that is printed. -/
def line (text : String) : Output := { printed := text ++ "\n" }

def log (debug : Bool) (level : Level) (text : String) : Output :=
  { logged := Console.logged debug level text }

theorem append_def (w w' : Output) :
    w ++ w' = ⟨w.printed ++ w'.printed, w.logged ++ w'.logged⟩ := rfl

@[simp] theorem empty_append (w : Output) : {} ++ w = w := by simp [append_def]

@[simp] theorem append_empty (w : Output) : w ++ {} = w := by simp [append_def]

theorem append_assoc (w w' w'' : Output) : w ++ w' ++ w'' = w ++ (w' ++ w'') := by
  simp [append_def, String.append_assoc]

end Output

/-- The console on which this has been written. -/
def Console.ofOutput (debug : Bool) (w : Output) : Console := ⟨w.printed, w.logged, debug⟩

theorem Console.ofOutput_inj {debug : Bool} {w w' : Output} :
    ofOutput debug w = ofOutput debug w' ↔ w = w' := by
  cases w
  cases w'
  simp [ofOutput]

namespace Action

variable {ε δ α β : Type} {debug : Bool} {s t u : Store} {w : Output}

/-- On the store `s` and a blank console the action ends with `r`, leaves the store `t` and writes
`w`. -/
def Makes (debug : Bool) (x : Action ε α) (s : Store) (r : Except ε α) (t : Store) (w : Output) :
    Prop :=
  (x ⟨s, { debug }⟩).result? = some (r, ⟨t, .ofOutput debug w⟩)

theorem makes_ok_iff {x : Action ε α} {a : α} :
    x.Makes debug s (.ok a) t w ↔ x ⟨s, { debug }⟩ = .value a ⟨t, .ofOutput debug w⟩ :=
  Outcome.result?_eq_ok_iff

/-- What an action that ends with a value makes. -/
theorem makes_of_value {x : Action ε α} (hx : WriteOnly true x) {a : α} {after : State}
    (h : x ⟨s, { debug }⟩ = .value a after) :
    x.Makes debug s (.ok a) after.store ⟨after.console.out, after.console.err⟩ := by
  have hdebug : after.console.debug = debug := hx.debug_eq (congrArg Outcome.after? h)
  rw [makes_ok_iff, h, Console.ofOutput, ← hdebug]

theorem apply_eq_value_iff {x : Action ε α} (hx : WriteOnly true x) {a : α} {after : State} :
    x ⟨s, { debug }⟩ = .value a after ↔
      ∃ w, x.Makes debug s (.ok a) after.store w ∧ after.console = .ofOutput debug w := by
  constructor
  · intro h
    have hmakes := makes_of_value hx h
    have heq := makes_ok_iff.1 hmakes
    rw [h] at heq
    exact ⟨_, hmakes, congrArg State.console (Outcome.value.inj heq).2⟩
  · rintro ⟨w, hmakes, hconsole⟩
    rw [makes_ok_iff.1 hmakes, ← hconsole]

/-- On other consoles what is written stands behind what was there. -/
theorem Makes.apply {x : Action ε α} {a : α} (h : x.Makes debug s (.ok a) t w)
    (hx : WriteOnly true x) {c : Console} (hc : c.debug = debug) :
    x ⟨s, c⟩ = .value a ⟨t, c.extend w.printed w.logged⟩ := by
  rw [hx s c, Console.blank, hc, makes_ok_iff.1 h]
  rfl

theorem Makes.bind {x : Action ε α} {f : α → Action ε β} {a : α} {b : β} {w₁ w₂ : Output}
    (h₁ : x.Makes debug s (.ok a) t w₁) (h₂ : (f a).Makes debug t (.ok b) u w₂)
    (hf : WriteOnly true (f a)) : (x >>= f).Makes debug s (.ok b) u (w₁ ++ w₂) := by
  rw [makes_ok_iff, bind_apply, makes_ok_iff.1 h₁]
  exact h₂.apply hf rfl

/-- What is done after something else comes out as if it were done alone, and what it writes comes
behind what the other wrote. -/
theorem makes_bind_iff {x : Action ε α} {f : α → Action ε β} (hx : WriteOnly true x)
    (hf : ∀ a, WriteOnly true (f a)) {b : β} :
    (x >>= f).Makes debug s (.ok b) u w ↔
      ∃ a t w₁ w₂, x.Makes debug s (.ok a) t w₁ ∧ (f a).Makes debug t (.ok b) u w₂ ∧
        w = w₁ ++ w₂ := by
  constructor
  · intro h
    have hboth := makes_ok_iff.1 h
    rw [bind_apply] at hboth
    cases hfirst : x ⟨s, { debug }⟩ with
    | value a after =>
      have h₁ := makes_of_value hx hfirst
      have hdebug : after.console.debug = debug := hx.debug_eq (congrArg Outcome.after? hfirst)
      -- `x` has written by now, so `f a` is compared with its run on a blank console.
      have hrest : f a after =
          (f a ⟨after.store, { debug }⟩).mapAfter (State.onto true after.console) := by
        rw [← hdebug]
        exact hf a after.store after.console
      simp only [hfirst, hrest] at hboth
      cases hsecond : f a ⟨after.store, { debug }⟩ with
      | value b' v =>
        have h₂ := makes_of_value (hf a) hsecond
        have heq := makes_ok_iff.1 (h₁.bind h₂ (hf a))
        rw [makes_ok_iff.1 h] at heq
        simp only [Outcome.value.injEq, State.mk.injEq, Console.ofOutput_inj] at heq
        obtain ⟨rfl, rfl, rfl⟩ := heq
        exact ⟨a, _, _, _, h₁, h₂, rfl⟩
      | error e v =>
        rw [hsecond] at hboth
        cases hboth
      | unfinished =>
        rw [hsecond] at hboth
        cases hboth
    | error e after =>
      rw [hfirst] at hboth
      cases hboth
    | unfinished =>
      rw [hfirst] at hboth
      cases hboth
  · rintro ⟨a, t, w₁, w₂, h₁, h₂, rfl⟩
    exact h₁.bind h₂ (hf a)

theorem makes_attempt_iff {x : Action ε α} {r : Except ε α} :
    (x.attempt : Action δ (Except ε α)).Makes debug s (.ok r) t w ↔ x.Makes debug s r t w := by
  unfold Makes attempt
  cases x ⟨s, { debug }⟩ <;> simp [Outcome.result?]

/-- An action that is known on a blank console makes this and nothing else. -/
theorem makes_iff_of_apply {x : Action ε α} {a : α} {v : Store} {w' : Output}
    (h : x ⟨s, { debug }⟩ = .value a ⟨v, .ofOutput debug w'⟩) {b : α} :
    x.Makes debug s (.ok b) t w ↔ a = b ∧ v = t ∧ w' = w := by
  simp only [makes_ok_iff, h, Outcome.value.injEq, State.mk.injEq, Console.ofOutput_inj]

theorem print_apply (debug : Bool) (s : Store) (text : String) :
    (print text ⟨s, { debug }⟩ : Outcome ε Unit) =
      .value () ⟨s, .ofOutput debug (.line text)⟩ := by
  simp [print, Console.print, Console.ofOutput, Output.line]

theorem log_apply (debug : Bool) (s : Store) (level : Level) (text : String) :
    (log level text ⟨s, { debug }⟩ : Outcome ε Unit) =
      .value () ⟨s, .ofOutput debug (.log debug level text)⟩ := by
  simp [log, Console.log_eq, Console.extend, Console.ofOutput, Output.log]

theorem makes_pure_iff {a b : α} :
    (pure a : Action ε α).Makes debug s (.ok b) t w ↔ a = b ∧ s = t ∧ {} = w :=
  makes_iff_of_apply rfl

theorem makes_print_iff {text : String} :
    (print text : Action ε Unit).Makes debug s (.ok ()) t w ↔ s = t ∧ .line text = w := by
  simp only [makes_iff_of_apply (print_apply debug s text), true_and]

theorem makes_log_iff {level : Level} {text : String} :
    (log level text : Action ε Unit).Makes debug s (.ok ()) t w ↔
      s = t ∧ .log debug level text = w := by
  simp only [makes_iff_of_apply (log_apply debug s level text), true_and]

/-- A call, and then a reply to its value or its error that leaves the store as it is. -/
theorem makes_reply_iff {x : Action ε α} {f : Except ε α → Action δ β} (b₁ b₂ : β)
    (onValue : α → Store → Output) (onError : ε → Store → Output) (hx : WriteOnly true x)
    (hf : ∀ r, WriteOnly true (f r))
    (hvalue : ∀ a v, f (.ok a) ⟨v, { debug }⟩ = .value b₁ ⟨v, .ofOutput debug (onValue a v)⟩)
    (herror : ∀ e v, f (.error e) ⟨v, { debug }⟩ = .value b₂ ⟨v, .ofOutput debug (onError e v)⟩)
    {b : β} :
    (x.attempt >>= f).Makes debug s (.ok b) t w ↔
      (∃ a w', x.Makes debug s (.ok a) t w' ∧ b₁ = b ∧ w' ++ onValue a t = w) ∨
        ∃ e w', x.Makes debug s (.error e) t w' ∧ b₂ = b ∧ w' ++ onError e t = w := by
  simp only [makes_bind_iff hx.attempt hf, makes_attempt_iff]
  constructor
  · rintro ⟨r, u, w₁, w₂, hcall, hreply, rfl⟩
    cases r with
    | ok a =>
      obtain ⟨hb, rfl, rfl⟩ := (makes_iff_of_apply (hvalue a u)).1 hreply
      exact .inl ⟨a, w₁, hcall, hb, rfl⟩
    | error e =>
      obtain ⟨hb, rfl, rfl⟩ := (makes_iff_of_apply (herror e u)).1 hreply
      exact .inr ⟨e, w₁, hcall, hb, rfl⟩
  · rintro (⟨a, w', hcall, hb, rfl⟩ | ⟨e, w', hcall, hb, rfl⟩)
    · exact ⟨.ok a, t, w', _, hcall, (makes_iff_of_apply (hvalue a t)).2 ⟨hb, rfl, rfl⟩, rfl⟩
    · exact ⟨.error e, t, w', _, hcall, (makes_iff_of_apply (herror e t)).2 ⟨hb, rfl, rfl⟩, rfl⟩

end Action

end ScopeLisp

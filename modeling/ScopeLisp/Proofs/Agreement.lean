import ScopeLisp.Proofs.Twins

/-!
# Agreement of actions

Two actions agree (`Twins.Agree`) if, on alike stores, both end with a value, both fail with the
same error, or both are cut off; the stores that they leave are alike, and they write the same to
the console. There is one rule for each way of putting actions together and one for each read and
write, as there is for `Discipline.Keeps`, which is about one run.
-/

namespace ScopeLisp

namespace Console

/-- The console after some more has been written. -/
def extend (c : Console) (out err : String) : Console :=
  { c with out := c.out ++ out, err := c.err ++ err }

/-- The same has been written on both consoles. -/
def Written (c d c' d' : Console) : Prop := ∃ out err, c' = c.extend out err ∧ d' = d.extend out err

variable {c d c' d' c'' d'' : Console}

theorem extend_empty (c : Console) : c.extend "" "" = c := by simp [extend]

theorem extend_extend (c : Console) (out err out' err' : String) :
    (c.extend out err).extend out' err' = c.extend (out ++ out') (err ++ err') := by
  simp [extend, String.append_assoc]

theorem print_eq (c : Console) (line : String) : c.print line = c.extend (line ++ "\n") "" := by
  simp [print, extend, String.append_assoc]

/-- What is written for a line to log: nothing for a debug line if these are not wanted. -/
def logged (debug : Bool) (level : Level) (line : String) : String :=
  if level != .debug || debug then
    "[eva] " ++ level.color ++ level.label ++ ":" ++ "\x1b[0m " ++ line ++ "\n"
  else ""

/-- What is logged depends only on whether debug lines are wanted. -/
theorem log_eq (c : Console) (level : Level) (line : String) :
    c.log level line = c.extend "" (logged c.debug level line) := by
  unfold log shows logged
  split
  · simp [extend, String.append_assoc]
  · rw [extend_empty]

theorem Written.refl (c d : Console) : Written c d c d :=
  ⟨"", "", c.extend_empty.symm, d.extend_empty.symm⟩

theorem Written.trans (h₁ : Written c d c' d') (h₂ : Written c' d' c'' d'') :
    Written c d c'' d'' := by
  obtain ⟨out, err, rfl, rfl⟩ := h₁
  obtain ⟨out', err', rfl, rfl⟩ := h₂
  exact ⟨out ++ out', err ++ err', extend_extend .., extend_extend ..⟩

theorem Written.debug_left (h : Written c d c' d') : c'.debug = c.debug := by
  obtain ⟨out, err, rfl, -⟩ := h
  rfl

theorem Written.debug_eq (h : Written c d c' d') (hdebug : c.debug = d.debug) :
    c'.debug = d'.debug := by
  obtain ⟨out, err, rfl, rfl⟩ := h
  exact hdebug

theorem written_print (c d : Console) (line : String) :
    Written c d (c.print line) (d.print line) :=
  ⟨line ++ "\n", "", c.print_eq line, d.print_eq line⟩

theorem written_log (hdebug : c.debug = d.debug) (level : Level) (line : String) :
    Written c d (c.log level line) (d.log level line) :=
  ⟨"", logged d.debug level line, hdebug ▸ c.log_eq level line, d.log_eq level line⟩

end Console

/-! ## Arithmetic on values that cannot be told apart -/

namespace Pairing.Like

variable {p : Pairing} {a a' b b' : Value}

theorem onNumbers_eq (ha : p.Like a a') (hb : p.Like b b') (operation : String)
    (k : Float → Float → Value) :
    Value.onNumbers operation k a b = Value.onNumbers operation k a' b' := by
  cases ha with
  | plain =>
    cases hb with
    | plain => rfl
    | _ => cases a <;> rfl
  | _ => cases hb <;> rfl

theorem add_eq (ha : p.Like a a') (hb : p.Like b b') : a.add b = a'.add b' := by
  cases ha with
  | plain =>
    cases hb with
    | plain => rfl
    | _ => cases a <;> rfl
  | _ => cases hb <;> rfl

theorem neg_eq (ha : p.Like a a') : a.neg = a'.neg := by
  cases ha <;> rfl

end Pairing.Like

namespace Twins

variable {P : String → Prop} {ε α β : Type}

/-- Two outcomes of actions that began with the stores of `w` and the consoles `c` and `d`. -/
inductive Ends (P : String → Prop) (w : Twins) (Q : Twins → α → α → Prop) (c d : Console) :
    Outcome ε α → Outcome ε α → Prop
  | value {w' : Twins} {a b : α} {c' d' : Console} (hw : w.Leads P w') (hq : Q w' a b)
      (hc : Console.Written c d c' d') :
      Ends P w Q c d (.value a ⟨w'.left, c'⟩) (.value b ⟨w'.right, d'⟩)
  | error {w' : Twins} {e : ε} {c' d' : Console} (hw : w.Leads P w')
      (hc : Console.Written c d c' d') :
      Ends P w Q c d (.error e ⟨w'.left, c'⟩) (.error e ⟨w'.right, d'⟩)
  | unfinished : Ends P w Q c d .unfinished .unfinished

/-- From the stores of `w` the actions come out alike, with `Q` of their values if they have any. -/
def Agree (P : String → Prop) (w : Twins) (x y : Action ε α) (Q : Twins → α → α → Prop) : Prop :=
  ∀ c d, c.debug = d.debug → Ends P w Q c d (x ⟨w.left, c⟩) (y ⟨w.right, d⟩)

theorem Ends.after {w w' : Twins} {Q : Twins → α → α → Prop} {c d c' d' : Console}
    {o o' : Outcome ε α} (h : Ends P w' Q c' d' o o') (hw : w.Leads P w')
    (hc : Console.Written c d c' d') : Ends P w Q c d o o' := by
  cases h with
  | value hw' hq hc' => exact .value (hw.trans hw') hq (hc.trans hc')
  | error hw' hc' => exact .error (hw.trans hw') (hc.trans hc')
  | unfinished => exact .unfinished

namespace Agree

variable {w : Twins} {Q : Twins → α → α → Prop} {R : Twins → β → β → Prop} {f g : FrameId}

/-! ## Rules of the combinators -/

theorem pure (h : w.Alike P) {a b : α} (hq : Q w a b) :
    Agree P w (pure a : Action ε α) (pure b) Q :=
  fun _ _ _ => .value (.refl h) hq (.refl ..)

theorem fail (h : w.Alike P) (e : ε) : Agree P w (.fail e) (.fail e) Q :=
  fun _ _ _ => .error (.refl h) (.refl ..)

theorem spent : Agree P w (.spent : Action ε α) .spent Q := fun _ _ _ => .unfinished

theorem ofExcept (h : w.Alike P) {r : Except ε α} (hq : ∀ a, r = .ok a → Q w a a) :
    Agree P w (.ofExcept r) (.ofExcept r) Q := by
  cases r with
  | ok a => exact pure h (hq a rfl)
  | error e => exact fail h e

theorem bind {x y : Action ε α} {k l : α → Action ε β} (hx : Agree P w x y Q)
    (hk : ∀ w' a b, w.Leads P w' → Q w' a b → Agree P w' (k a) (l b) R) :
    Agree P w (x >>= k) (y >>= l) R := by
  intro c d hdebug
  have hxc := hx c d hdebug
  rw [Action.bind_apply, Action.bind_apply]
  generalize x ⟨w.left, c⟩ = o at hxc ⊢
  generalize y ⟨w.right, d⟩ = o' at hxc ⊢
  cases hxc with
  | value hw hq hc => exact (hk _ _ _ hw hq _ _ (hc.debug_eq hdebug)).after hw hc
  | error hw hc => exact .error hw hc
  | unfinished => exact .unfinished

theorem mapError {δ : Type} {m : ε → δ} {x y : Action ε α} (hx : Agree P w x y Q) :
    Agree P w (x.mapError m) (y.mapError m) Q := by
  intro c d hdebug
  have hxc := hx c d hdebug
  unfold Action.mapError
  generalize x ⟨w.left, c⟩ = o at hxc ⊢
  generalize y ⟨w.right, d⟩ = o' at hxc ⊢
  cases hxc with
  | value hw hq hc => exact .value hw hq hc
  | error hw hc => exact .error hw hc
  | unfinished => exact .unfinished

/-! ## Rules of the single reads and writes -/

theorem lookup (h : w.Alike P) (hf : w.frame f g) {name : String} (hname : P name) :
    Agree P w (.lookup f name) (.lookup g name) fun w => w.Like := by
  intro c d hdebug
  have hv := h.lookup? hf hname
  unfold Action.lookup
  generalize w.left.lookup? f name = r at hv ⊢
  generalize w.right.lookup? g name = r' at hv ⊢
  cases hv with
  | some hv => exact .value (.refl h) hv (.refl ..)
  | none => exact .error (.refl h) (.refl ..)

theorem define (h : w.Alike P) (hf : w.frame f g) (name : String) {v v' : Value}
    (hv : w.Like v v') :
    Agree P w (.define f name v : Action ε Value) (.define g name v') fun w => w.Like := by
  intro _ _ _
  have hleads : w.Leads P _ := .define h hf name hv
  exact .value hleads (hv.mono hleads.sub) (.refl ..)

theorem defineAll (h : w.Alike P) (hf : w.frame f g) (names : List String) {vs vs' : List Value}
    (hvs : List.Forall₂ w.Like vs vs') :
    Agree P w (.defineAll f (names.zip vs) : Action ε Unit) (.defineAll g (names.zip vs'))
      fun _ _ _ => True := by
  induction names generalizing w vs vs' with
  | nil => exact pure h trivial
  | cons name names ih =>
    cases hvs with
    | nil => exact pure h trivial
    | cons hv hvs =>
      refine bind (define h hf name hv) fun w' _ _ hw _ => ?_
      exact ih hw.alike (hw.sub.frame hf) (hvs.imp fun _ _ hv => hv.mono hw.sub)

theorem assign (h : w.Alike P) (hf : w.frame f g) {name : String} (hname : P name) {v v' : Value}
    (hv : w.Like v v') :
    Agree P w (.assign f name v) (.assign g name v') fun w => w.Like := by
  intro c d hdebug
  have howner := h.owner? hf hname
  unfold Action.assign
  generalize w.left.owner? f name = r at howner ⊢
  generalize w.right.owner? g name = r' at howner ⊢
  cases howner with
  | some hf' => exact define h hf' name hv c d hdebug
  | none => exact .error (.refl h) (.refl ..)

theorem newFrame (h : w.Alike P) (hf : w.frame f g) (role role' : Role) :
    Agree P w (.newFrame role (some f) : Action ε FrameId) (.newFrame role' (some g))
      fun w => w.object :=
  fun _ _ _ => .value (.addFrame h hf role role') (.inr ⟨rfl, rfl⟩) (.refl ..)

theorem newClosure (h : w.Alike P) (hf : w.frame f g) (params : List String) {body : Datum}
    (hbody : body.Code P) :
    Agree P w (.newClosure ⟨params, body, f⟩ : Action ε ClosureId) (.newClosure ⟨params, body, g⟩)
      fun w => w.closure :=
  fun _ _ _ => .value (.addClosure h hf params hbody) (.inr ⟨rfl, rfl⟩) (.refl ..)

theorem closure? (h : w.Alike P) {a b : ClosureId} (hab : w.closure a b) :
    Agree P w (.closure? a : Action ε (Option Closure)) (.closure? b) fun w r r' =>
      ∃ c scope, r = some c ∧ r' = some { c with scope } ∧ w.frame c.scope scope ∧
        c.body.Code P :=
  fun _ _ _ => .value (.refl h) (h.closure hab) (.refl ..)

theorem asObject (h : w.Alike P) (operation : String) {v v' : Value} (hv : w.Like v v') :
    Agree P w (.ofExcept (v.asObject operation)) (.ofExcept (v'.asObject operation))
      fun w => w.frame := by
  cases hv with
  | plain hv =>
    refine ofExcept h fun f hf => ?_
    cases v with
    | object => exact absurd rfl hv.2
    | _ => cases hf
  | proc => exact fail h _
  | object hf => exact pure h (h.frame_of_object hf)

theorem asBase (h : w.Alike P) (hf : w.frame f g) {v v' : Value} (hv : w.Like v v') :
    Agree P w (.ofExcept v.asBase) (.ofExcept v'.asBase) fun w base base' =>
      w.frame (base.getD f) (base'.getD g) := by
  cases hv with
  | plain hv =>
    refine ofExcept h fun base hbase => ?_
    cases v with
    | null =>
      cases hbase
      exact hf
    | object => exact absurd rfl hv.2
    | _ => cases hbase
  | proc => exact fail h _
  | object hf' => exact pure h (h.frame_of_object hf')

theorem name (h : w.Alike P) (form : String) (d : Datum) :
    Agree P w (.ofExcept (Form.nameIn form d)) (.ofExcept (Form.nameIn form d)) fun _ name name' =>
      name = name' ∧ d = .symbol name :=
  ofExcept h fun _ hname => ⟨rfl, Form.eq_symbol_of_nameIn hname⟩

theorem textsOf (h : w.Alike P) {vs vs' : List Value} (hvs : List.Forall₂ w.Like vs vs') :
    Agree P w (.textsOf vs : Action ε (List String)) (.textsOf vs') fun _ => Eq := by
  have htexts : vs.map (Value.text w.left) = vs'.map (Value.text w.right) := by
    induction hvs with
    | nil => rfl
    | cons hv _ ih => rw [List.map_cons, List.map_cons, h.text_eq hv, ih]
  exact fun _ _ _ => .value (.refl h) htexts (.refl ..)

theorem print (h : w.Alike P) (line : String) :
    Agree P w (.print line : Action ε Unit) (.print line) fun _ _ _ => True :=
  fun c d _ => .value (.refl h) trivial (Console.written_print c d line)

theorem log (h : w.Alike P) (level : Level) (line : String) :
    Agree P w (.log level line : Action ε Unit) (.log level line) fun _ _ _ => True :=
  fun _ _ hdebug => .value (.refl h) trivial (Console.written_log hdebug level line)

/-! ## Native procedures -/

theorem onTwo (h : w.Alike P) {op : Native} {k : Value → Value → Except RunError Value}
    (hlike : ∀ {a a' b b'}, w.Like a a' → w.Like b b' → k a b = k a' b')
    (hplain : ∀ a b v, k a b = .ok v → v.IsPlain) {args args' : List Value}
    (hargs : List.Forall₂ w.Like args args') :
    Agree P w (op.onTwo k args) (op.onTwo k args') fun w => w.Like := by
  have hlength := hargs.length_eq
  cases hargs with
  | nil => exact fail h _
  | cons ha hargs =>
    cases hargs with
    | nil => exact fail h _
    | cons hb hargs =>
      cases hargs with
      | nil =>
        show Agree P w (.ofExcept (k _ _)) (.ofExcept (k _ _)) _
        rw [hlike ha hb]
        exact ofExcept h fun v hv => .plain (hplain _ _ v hv)
      | @cons c c' cs cs' =>
        show Agree P w (.fail (RunError.wrongCount op.name 2 (_ :: _ :: c :: cs).length))
          (.fail (RunError.wrongCount op.name 2 (_ :: _ :: c' :: cs').length)) _
        rw [hlength]
        exact fail h _

theorem onNumbers (h : w.Alike P) {op : Native} {operation : String} {k : Float → Float → Value}
    (hplain : ∀ x y, (k x y).IsPlain) {args args' : List Value}
    (hargs : List.Forall₂ w.Like args args') :
    Agree P w (op.onTwo (Value.onNumbers operation k) args)
      (op.onTwo (Value.onNumbers operation k) args') fun w => w.Like :=
  onTwo h (fun ha hb => ha.onNumbers_eq hb operation k)
    (fun _ _ _ => Discipline.isPlain_of_onNumbers hplain) hargs

theorem native (h : w.Alike P) (op : Native) {args args' : List Value}
    (hargs : List.Forall₂ w.Like args args') :
    Agree P w (op.call args) (op.call args') fun w => w.Like := by
  have number : ∀ (k : Float → Float → Float) x y, (Value.number (k x y)).IsPlain :=
    fun _ _ _ => ⟨nofun, nofun⟩
  have test : ∀ (k : Float → Float → Bool) x y, (Value.bool (k x y)).IsPlain :=
    fun _ _ _ => ⟨nofun, nofun⟩
  cases op with
  | add =>
    exact onTwo h (fun ha hb => ha.add_eq hb) (fun _ _ _ => Discipline.isPlain_of_add) hargs
  | sub =>
    cases hargs with
    | nil => exact fail h _
    | cons ha hargs =>
      cases hargs with
      | nil =>
        show Agree P w (.ofExcept (Value.neg _)) (.ofExcept (Value.neg _)) _
        rw [ha.neg_eq]
        exact ofExcept h fun v hv => .plain (Discipline.isPlain_of_neg hv)
      | cons hb hargs => exact onNumbers h (number _) (.cons ha (.cons hb hargs))
  | mul => exact onNumbers h (number _) hargs
  | div => exact onNumbers h (number _) hargs
  | greater => exact onNumbers h (test _) hargs
  | greaterEq => exact onNumbers h (test _) hargs
  | less => exact onNumbers h (test _) hargs
  | lessEq => exact onNumbers h (test _) hargs
  | equal =>
    refine onTwo h (fun ha hb => by rw [h.equal_eq ha hb]) (fun a b v hv => ?_) hargs
    cases hv
    exact ⟨nofun, nofun⟩
  | print =>
    refine bind (textsOf h hargs) fun w' texts _ hw heq => ?_
    subst heq
    refine bind (print hw.alike _) fun w'' _ _ hw' _ => ?_
    exact pure hw'.alike .unit

end Agree

end Twins

end ScopeLisp

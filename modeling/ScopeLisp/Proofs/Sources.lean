import ScopeLisp.Proofs.Provenance
import ScopeLisp.Proofs.ScopeTree

/-!
# Sources

The account that a tracked evaluation keeps is right: no two values that were made are one value or
have one source, and every value that is bound, passed or returned stands with the source that it was
made by (`Ledger.Faithful`). Every evaluation keeps it so, also one that is cut off
(`Tracker.eval_faithful`). For this an evaluation must be known not to have made anything before it
makes its value, though other evaluations go on inside of it; such are the `idle` evaluations of
`Ledger.Good`.
-/

namespace ScopeLisp

/-- The kind of what is made by evaluating the form. -/
def Form.makes? : Form → Option Kind
  | .closure _ _ => some .proc
  | .classDef _ _ _ | .instantiate _ _ => some .object
  | _ => none

namespace Ledger

variable {l m : Ledger} {s t : Store} {n : Nat} {p q : List Nat}

/-- The evaluation with number `n` is one of a form that makes a value of kind `k`. -/
def Makes (l : Ledger) (n : Nat) (k : Kind) : Prop :=
  ∃ d form, l.begun[n]? = some d ∧ Form.ofDatum d = .ok form ∧ form.makes? = some k

/-- The value was made by its source, or it was not made and has none. -/
def Backs (l : Ledger) (v : Sourced) : Prop := v.value.IsPlain ∧ v.source = none ∨ v ∈ l.made

/-- The account does not contradict itself. -/
structure Sound (l : Ledger) : Prop where
  maker : ∀ v ∈ l.made, ∃ n, v.source = some n ∧ l.Makes n v.value.kind
  distinct : ∀ v ∈ l.made, ∀ w ∈ l.made, v.value = w.value ↔ v.source = w.source
  ended : ∀ e ∈ l.ended, l.Backs e.2 ∧ e.1 < l.begun.length ∧
    ∀ k, l.Makes e.1 k → e.2.source = some e.1

/-- The account is one of this store. -/
structure Faithful (l : Ledger) (s : Store) : Prop extends l.Sound where
  held : ∀ v ∈ l.made, s.Holds v.value
  bound : ∀ f name v, (s.own f).get? name = some v → l.Backs ⟨v, l.bound f name⟩

/-- The account is right, and the evaluations with the numbers in `p` have not made anything. -/
structure Good (p : List Nat) (l : Ledger) (s : Store) : Prop where
  faithful : l.Faithful s
  idle : ∀ n ∈ p, n < l.begun.length ∧ ∀ v ∈ l.made, v.source ≠ some n

/-- What `l` may become by the time the store is `t`. -/
structure Leads (p : List Nat) (l m : Ledger) (t : Store) : Prop where
  good : m.Good p t
  begun : l.begun <+: m.begun
  made : l.made ⊆ m.made

theorem Makes.lt {k : Kind} (h : l.Makes n k) : n < l.begun.length :=
  let ⟨_, _, hd, _⟩ := h
  (List.getElem?_eq_some_iff.1 hd).1

/-- An evaluation is of one form. -/
theorem Makes.makes? {k : Kind} {d : Datum} {form : Form} (h : l.Makes n k)
    (hd : l.begun[n]? = some d) (hform : Form.ofDatum d = .ok form) : form.makes? = some k := by
  obtain ⟨d', form', hd', hform', hk⟩ := h
  cases hd.symm.trans hd'
  cases hform.symm.trans hform'
  exact hk

theorem getElem?_begun (h : l.begun <+: m.begun) (hn : n < l.begun.length) :
    m.begun[n]? = l.begun[n]? := by
  obtain ⟨rest, hrest⟩ := h
  rw [← hrest, List.getElem?_append_left hn]

theorem Makes.mono {k : Kind} (h : l.Makes n k) (hb : l.begun <+: m.begun) : m.Makes n k := by
  have hn := h.lt
  obtain ⟨d, form, hd, hform⟩ := h
  exact ⟨d, form, (getElem?_begun hb hn).trans hd, hform⟩

theorem Makes.of_begun {k : Kind} (h : m.Makes n k) (hb : l.begun <+: m.begun)
    (hn : n < l.begun.length) : l.Makes n k := by
  obtain ⟨d, form, hd, hform⟩ := h
  exact ⟨d, form, (getElem?_begun hb hn).symm.trans hd, hform⟩

theorem Backs.plain {v : Value} (h : v.IsPlain) : l.Backs (.plain v) := .inl ⟨h, rfl⟩

theorem Backs.mono {v : Sourced} (h : l.Backs v) (hm : l.made ⊆ m.made) : m.Backs v :=
  h.imp id fun hv => hm hv

/-! ## What the account records -/

theorem Faithful.of_own (h : l.Faithful s) (hown : ∀ f, t.own f = s.own f) (hg : s.Grows t) :
    l.Faithful t where
  toSound := h.toSound
  held v hv := (h.held v hv).grows hg
  bound f name v hv := h.bound f name v (hown f ▸ hv)

theorem Faithful.define (h : l.Faithful s) (f : FrameId) (name : String) {v : Sourced}
    (hv : l.Backs v) : (l.bind f name v.source).Faithful (s.define f name v.value) where
  maker := h.maker
  distinct := h.distinct
  ended := h.ended
  held w hw := (h.held w hw).grows (.define .refl f name v.value)
  bound g other w hw := by
    show l.Backs ⟨w, if g = f ∧ other = name then v.source else l.bound g other⟩
    have hlt : g < (s.define f name v.value).frames.size := Store.lt_of_get? hw
    by_cases hf : f < s.frames.size
    · rw [Store.own_define s hf] at hw
      by_cases hg : g = f
      · rw [if_pos hg, Bindings.get?_insert] at hw
        by_cases hname : other = name
        · rw [if_pos hname] at hw
          cases hw
          rw [if_pos ⟨hg, hname⟩]
          exact hv
        · rw [if_neg hname] at hw
          rw [if_neg fun h => hname h.2]
          exact h.bound g other w hw
      · rw [if_neg hg] at hw
        rw [if_neg fun h => hg h.1]
        exact h.bound g other w hw
    · rw [Store.own_define_of_le s (Nat.not_lt.1 hf)] at hw
      rw [Store.size_define] at hlt
      rw [if_neg fun (h : g = f ∧ other = name) => hf (h.1 ▸ hlt)]
      exact h.bound g other w hw

theorem Faithful.begins (h : l.Faithful s) (d : Datum) :
    ({ l with begun := l.begun ++ [d] } : Ledger).Faithful s where
  maker v hv := by
    obtain ⟨n, hn, hk⟩ := h.maker v hv
    exact ⟨n, hn, hk.mono (List.prefix_append _ _)⟩
  distinct := h.distinct
  ended e he := by
    obtain ⟨hb, hn, hsource⟩ := h.ended e he
    refine ⟨hb, ?_, fun k hk => hsource k (hk.of_begun (List.prefix_append _ _) hn)⟩
    rw [List.length_append]
    exact Nat.lt_add_right _ hn
  held := h.held
  bound := h.bound

theorem Faithful.ends (h : l.Faithful s) {v : Sourced} (hn : n < l.begun.length) (hv : l.Backs v)
    (hsource : ∀ k, l.Makes n k → v.source = some n) :
    ({ l with ended := (n, v) :: l.ended } : Ledger).Faithful s where
  maker := h.maker
  distinct := h.distinct
  ended e he := by
    rcases List.mem_cons.1 he with rfl | he
    · exact ⟨hv, hn, hsource⟩
    · exact h.ended e he
  held := h.held
  bound := h.bound

/-- An evaluation that has not made anything makes a value that was not there. -/
theorem Faithful.makes (h : l.Faithful s) {v : Value} (hn : l.Makes n v.kind)
    (hidle : ∀ w ∈ l.made, w.source ≠ some n) (hnew : ¬ s.Holds v) (hv : t.Holds v)
    (hown : ∀ f, t.own f = s.own f) (hg : s.Grows t) :
    ({ l with made := ⟨v, some n⟩ :: l.made } : Ledger).Faithful t where
  maker w hw := by
    rcases List.mem_cons.1 hw with rfl | hw
    · exact ⟨n, rfl, hn⟩
    · exact h.maker w hw
  distinct a ha b hb := by
    have apart : ∀ w ∈ l.made, v ≠ w.value ∧ some n ≠ w.source := fun w hw =>
      ⟨fun e => hnew (e ▸ h.held w hw), fun e => hidle w hw e.symm⟩
    rcases List.mem_cons.1 ha with rfl | ha <;> rcases List.mem_cons.1 hb with rfl | hb
    · exact iff_of_true rfl rfl
    · exact iff_of_false (apart b hb).1 (apart b hb).2
    · exact iff_of_false (apart a ha).1.symm (apart a ha).2.symm
    · exact h.distinct a ha b hb
  ended e he := by
    obtain ⟨hb, hrest⟩ := h.ended e he
    exact ⟨hb.mono (List.subset_cons_self _ _), hrest⟩
  held w hw := by
    rcases List.mem_cons.1 hw with rfl | hw
    · exact hv
    · exact (h.held w hw).grows hg
  bound f name w hw :=
    (h.bound f name w (hown f ▸ hw)).mono (List.subset_cons_self _ _)

theorem Faithful.fresh : ({} : Ledger).Faithful Store.fresh where
  maker := nofun
  distinct := nofun
  ended := nofun
  held := nofun
  bound _ _ _ hv := .plain (Store.isPlain_fresh hv)

theorem Good.mono (h : l.Good p s) (hq : q ⊆ p) : l.Good q s :=
  ⟨h.faithful, fun n hn => h.idle n (hq hn)⟩

theorem Leads.refl (h : l.Good p s) : l.Leads p l s := ⟨h, List.prefix_refl _, fun _ hv => hv⟩

theorem Leads.trans {k : Ledger} (hm : l.Leads p m s) (hk : m.Leads q k t) : l.Leads q k t :=
  ⟨hk.good, hm.begun.trans hk.begun, fun _ hv => hk.made (hm.made hv)⟩

theorem Leads.mono (h : l.Leads p m t) (hq : q ⊆ p) : l.Leads q m t :=
  ⟨h.good.mono hq, h.begun, h.made⟩

end Ledger

namespace Tracked

open Ledger

variable {ε δ α β : Type} {p q : List Nat} {l m : Ledger} {s t : Store} {n : Nat}
  {Q : Ledger → α → Prop} {R : Ledger → β → Prop}

/-- A right account of the store that is left, and `Q` of the value if there is one. If the fuel did
not last then there is no store, but still an account. -/
def Leaves (p : List Nat) (l : Ledger) (Q : Ledger → α → Prop) : Outcome ε α × Ledger → Prop
  | (.value a t, m) => l.Leads p m t.store ∧ Q m a
  | (.error _ t, m) => l.Leads p m t.store
  | (.unfinished, m) => m.Sound

def Keeps (p : List Nat) (l : Ledger) (s : Store) (x : Tracked ε α) (Q : Ledger → α → Prop) :
    Prop := ∀ c, Leaves p l Q (x l ⟨s, c⟩)

namespace Keeps

/-! ## Rules of the combinators -/

theorem pure {a : α} (hs : l.Good p s) (ha : Q l a) : Keeps p l s (pure a : Tracked ε α) Q :=
  fun _ => ⟨.refl hs, ha⟩

theorem fail {e : ε} (hs : l.Good p s) : Keeps p l s (fail e) Q := fun _ => Leads.refl hs

theorem spent (hs : l.Good p s) : Keeps p l s (lift .spent : Tracked ε α) Q :=
  fun _ => hs.faithful.toSound

/-- What `x` leaves idle and what the rest does may differ. -/
theorem bind_of_subset {x : Tracked ε α} {f : α → Tracked ε β} (hq : q ⊆ p)
    (hx : Keeps p l s x Q) (hf : ∀ m t a, l.Leads p m t → Q m a → Keeps q m t (f a) R) :
    Keeps q l s (x >>= f) R := by
  intro c
  have hxc := hx c
  rw [bind_apply]
  rcases hr : x l ⟨s, c⟩ with ⟨a | e | _, m⟩
  · next t =>
    rw [hr] at hxc
    have hfc := hf m t.store a hxc.1 hxc.2 t.console
    show Leaves q l R (f a m t)
    rcases hfr : f a m t with ⟨b | e | _, k⟩
    · rw [hfr] at hfc
      exact ⟨hxc.1.trans hfc.1, hfc.2⟩
    · rw [hfr] at hfc
      exact hxc.1.trans hfc
    · rw [hfr] at hfc
      exact hfc
  · rw [hr] at hxc
    exact hxc.mono hq
  · rw [hr] at hxc
    exact hxc

theorem bind {x : Tracked ε α} {f : α → Tracked ε β} (hx : Keeps p l s x Q)
    (hf : ∀ m t a, l.Leads p m t → Q m a → Keeps p m t (f a) R) : Keeps p l s (x >>= f) R :=
  hx.bind_of_subset (List.Subset.refl p) hf

theorem mono {Q' : Ledger → α → Prop} {x : Tracked ε α} (hx : Keeps p l s x Q)
    (hQ : ∀ m a, Q m a → Q' m a) : Keeps p l s x Q' := by
  intro c
  have hxc := hx c
  rcases hr : x l ⟨s, c⟩ with ⟨a | e | _, m⟩ <;> rw [hr] at hxc
  · exact ⟨hxc.1, hQ m a hxc.2⟩
  · exact hxc
  · exact hxc

theorem attempt {x : Tracked ε α} (hx : Keeps p l s x Q) :
    Keeps p l s (x.attempt : Tracked δ (Except ε α)) fun _ _ => True := by
  intro c
  have hxc := hx c
  unfold Tracked.attempt
  rcases hr : x l ⟨s, c⟩ with ⟨a | e | _, m⟩ <;> rw [hr] at hxc
  · exact ⟨hxc.1, trivial⟩
  · exact ⟨hxc, trivial⟩
  · exact hxc

theorem mapError {g : ε → δ} {x : Tracked ε α} (hx : Keeps p l s x Q) :
    Keeps p l s (x.mapError g) Q := by
  intro c
  have hxc := hx c
  unfold Tracked.mapError
  rcases hr : x l ⟨s, c⟩ with ⟨a | e | _, m⟩ <;> rw [hr] at hxc
  · exact hxc
  · exact hxc
  · exact hxc

/-! ## Rules of what leaves the store as it is -/

theorem ofExcept (r : Except ε α) (hs : l.Good p s) :
    Keeps p l s (lift (.ofExcept r)) fun _ a => r = .ok a := by
  cases r with
  | ok a => exact fun _ => ⟨.refl hs, rfl⟩
  | error e => exact fun _ => Leads.refl hs

theorem closure? (id : ClosureId) (hs : l.Good p s) :
    Keeps p l s (lift (Action.closure? id) : Tracked ε (Option Closure)) fun _ _ => True :=
  fun _ => ⟨.refl hs, trivial⟩

theorem log (level : Level) (line : String) (hs : l.Good p s) :
    Keeps p l s (lift (Action.log level line) : Tracked ε Unit) fun _ _ => True :=
  fun _ => ⟨.refl hs, trivial⟩

theorem native (op : Native) (args : List Value) (hs : l.Good p s) :
    Keeps p l s (lift (op.call args)) fun _ v => v.IsPlain := by
  intro c
  show Leaves p l _ (op.call args ⟨s, c⟩, l)
  rcases Discipline.YieldsPlain.native op args s c with ⟨v, c', h, hv⟩ | ⟨e, h⟩ <;> rw [h]
  · exact ⟨.refl hs, hv⟩
  · exact Leads.refl hs

/-- A name means what it is bound to by its owner, and with its source. -/
theorem lookup (env : FrameId) (name : String) (hs : l.Good p s) :
    Keeps p l s (lookup env name) Backs := by
  intro c
  unfold Tracked.lookup
  cases hv : s.lookup? env name with
  | none => exact Leads.refl hs
  | some v =>
    refine ⟨.refl hs, ?_⟩
    rw [Store.lookup?_eq_bind_owner?] at hv
    obtain ⟨f, hf, hv⟩ := Option.bind_eq_some_iff.1 hv
    have hmeant : l.meant s env name = l.bound f name := by
      rw [meant, hf, Option.bind_some]
    rw [hmeant]
    exact hs.faithful.bound f name v hv

/-! ## Rules of what writes -/

theorem define (f : FrameId) (name : String) {v : Sourced} (hs : l.Good p s) (hv : l.Backs v) :
    Keeps p l s (define f name v : Tracked ε Sourced) fun m w => m.Backs w ∧ w.source = v.source :=
  fun _ => ⟨⟨⟨hs.faithful.define f name hv, hs.idle⟩, List.prefix_refl _, fun _ h => h⟩, hv, rfl⟩

theorem defineAll (f : FrameId) {entries : List (String × Sourced)} (hs : l.Good p s)
    (hv : ∀ e ∈ entries, l.Backs e.2) :
    Keeps p l s (defineAll f entries : Tracked ε Unit) fun _ _ => True := by
  induction entries generalizing l s with
  | nil => exact pure hs trivial
  | cons e entries ih =>
    refine bind (define f e.1 hs (hv e List.mem_cons_self)) fun m t _ hm _ => ?_
    exact ih hm.good fun e' he' => (hv e' (List.mem_cons_of_mem _ he')).mono hm.made

theorem assign (env : FrameId) (name : String) {v : Sourced} (hs : l.Good p s)
    (hv : l.Backs v) : Keeps p l s (assign env name v) Backs := by
  intro c
  unfold Tracked.assign
  cases s.owner? env name with
  | some f => exact (define f name hs hv).mono (fun _ _ h => h.1) c
  | none => exact Leads.refl hs

theorem newFrame (role : Role) (parent : Option FrameId) (hs : l.Good p s) :
    Keeps p l s (lift (Action.newFrame role parent) : Tracked ε FrameId) fun _ _ => True := by
  have hfaithful := hs.faithful.of_own (Store.own_addFrame s role parent) (.addFrame .refl role parent)
  exact fun _ => ⟨⟨⟨hfaithful, hs.idle⟩, List.prefix_refl _, fun _ h => h⟩, trivial⟩

/-- The others are idle still. -/
theorem idle_of_makes {v : Value} (hs : l.Good (n :: p) s) (hn : n ∉ p) :
    ∀ k ∈ p, k < l.begun.length ∧ ∀ w ∈ (⟨v, some n⟩ : Sourced) :: l.made, w.source ≠ some k := by
  intro k hk
  obtain ⟨hlt, hidle⟩ := hs.idle k (List.mem_cons_of_mem _ hk)
  refine ⟨hlt, fun w hw => ?_⟩
  rcases List.mem_cons.1 hw with rfl | hw
  · exact fun h => hn (Option.some.inj h ▸ hk)
  · exact hidle w hw

theorem newObject (role : Role) (parent : Option FrameId) (hs : l.Good (n :: p) s) (hn : n ∉ p)
    (hmakes : l.Makes n .object) :
    Keeps p l s (newObject n role parent : Tracked ε FrameId)
      fun m f => (⟨.object f, some n⟩ : Sourced) ∈ m.made := by
  have hfaithful := hs.faithful.makes (t := (s.addFrame role parent).2) (v := .object s.frames.size)
    hmakes (hs.idle n List.mem_cons_self).2 (Nat.lt_irrefl _)
    (by rw [Store.Holds, Store.size_addFrame]; exact Nat.lt_succ_self _)
    (Store.own_addFrame s role parent) (.addFrame .refl role parent)
  exact fun _ => ⟨⟨⟨hfaithful, idle_of_makes hs hn⟩, List.prefix_refl _, List.subset_cons_self _ _⟩,
    List.mem_cons_self⟩

theorem newClosure (c : Closure) (hs : l.Good (n :: p) s) (hn : n ∉ p)
    (hmakes : l.Makes n .proc) :
    Keeps p l s (newClosure n c : Tracked ε ClosureId)
      fun m id => (⟨.proc id, some n⟩ : Sourced) ∈ m.made := by
  have hfaithful := hs.faithful.makes (t := (s.addClosure c).2) (v := .proc s.closures.size)
    hmakes (hs.idle n List.mem_cons_self).2 (Nat.lt_irrefl _)
    (by rw [Store.Holds, Store.size_addClosure]; exact Nat.lt_succ_self _)
    (Store.own_addClosure s c) (.addClosure .refl c)
  exact fun _ => ⟨⟨⟨hfaithful, idle_of_makes hs hn⟩, List.prefix_refl _, List.subset_cons_self _ _⟩,
    List.mem_cons_self⟩

/-! ## Rules of the account of evaluations -/

theorem begins (d : Datum) (hs : l.Good p s) :
    Keeps p l s (begins d : Tracked ε Nat) fun m n =>
      n ∉ p ∧ m.begun[n]? = some d ∧ ∀ v ∈ m.made, v.source ≠ some n := by
  refine fun _ => ⟨⟨⟨hs.faithful.begins d, fun k hk => ?_⟩, List.prefix_append _ _, fun _ h => h⟩,
    fun hmem => ?_, by simp, fun v hv hsource => ?_⟩
  · obtain ⟨hlt, hidle⟩ := hs.idle k hk
    exact ⟨by rw [List.length_append]; exact Nat.lt_add_right _ hlt, hidle⟩
  · exact Nat.lt_irrefl _ (hs.idle _ hmem).1
  · obtain ⟨n, hn, hmakes⟩ := hs.faithful.maker v hv
    cases hn.symm.trans hsource
    exact Nat.lt_irrefl _ hmakes.lt

theorem ends {v : Sourced} (hs : l.Good p s) (hn : n < l.begun.length) (hv : l.Backs v)
    (hsource : ∀ k, l.Makes n k → v.source = some n) :
    Keeps p l s (ends n v : Tracked ε Unit) fun _ _ => True :=
  fun _ => ⟨⟨⟨hs.faithful.ends hn hv hsource, hs.idle⟩, List.prefix_refl _, fun _ h => h⟩, trivial⟩

end Keeps

end Tracked

open Ledger
open Tracked (Keeps)

/-- Every evaluation keeps the account right. -/
def Tracker.Faithful (track : Tracker) : Prop :=
  ∀ p l s d env, l.Good p s → Keeps p l s (track d env) Backs

namespace Tracker.Faithful

variable {track : Tracker} {p : List Nat} {l : Ledger} {s : Store} {env : FrameId} {n : Nat}

theorem block (h : track.Faithful) {last : Sourced} (ds : List Datum) (hs : l.Good p s)
    (hlast : l.Backs last) : Keeps p l s (track.block env last ds) Backs := by
  induction ds generalizing l s last with
  | nil => exact .pure hs hlast
  | cons d ds ih => exact .bind (h p l s d env hs) fun m t v hm hv => ih hm.good hv

theorem values (h : track.Faithful) (ds : List Datum) (hs : l.Good p s) :
    Keeps p l s (track.values env ds) fun m vs => ∀ v ∈ vs, m.Backs v := by
  induction ds generalizing l s with
  | nil => exact .pure hs nofun
  | cons d ds ih =>
    refine .bind (h p l s d env hs) fun m t v hm hv => ?_
    refine .bind (ih hm.good) fun k u vs hk hvs => ?_
    exact .pure hk.good (List.forall_mem_cons.2 ⟨hv.mono hk.made, hvs⟩)

theorem body (h : track.Faithful) (d : Datum) (hs : l.Good p s) :
    Keeps p l s (track.body env d) Backs := by
  unfold Tracker.body
  split
  · exact h.block _ hs (.plain ⟨nofun, nofun⟩)
  · exact h p l s d env hs

theorem loop (h : track.Faithful) (condition d : Datum) (limit : Nat) {last : Sourced}
    (hs : l.Good p s) (hlast : l.Backs last) :
    Keeps p l s (track.loop env condition d limit last) Backs := by
  induction limit generalizing l s last with
  | zero => exact .spent hs
  | succ limit ih =>
    refine .bind (h p l s condition env hs) fun m t test hm _ => ?_
    split
    · exact .bind (h p m t d env hm.good) fun k u v hk hv => ih hk.good hv
    · exact .pure hm.good (hlast.mono hm.made)

theorem callClosure (h : track.Faithful) (callee : String) (c : Closure) {args : List Sourced}
    (hs : l.Good p s) (hargs : ∀ v ∈ args, l.Backs v) :
    Keeps p l s (track.callClosure callee c args) Backs := by
  unfold Tracker.callClosure
  split
  · refine .bind (.newFrame _ _ hs) fun m t frame hm _ => ?_
    refine .bind (.defineAll frame hm.good fun e he => ?_) fun k u _ hk _ => h.body c.body hk.good
    exact (hargs e.2 (List.of_mem_zip he).2).mono hm.made
  · exact .fail hs

theorem callProc (h : track.Faithful) (callee : String) (id : ClosureId) {args : List Sourced}
    (hs : l.Good p s) (hargs : ∀ v ∈ args, l.Backs v) :
    Keeps p l s (track.callProc callee id args) Backs := by
  refine .bind (.closure? id hs) fun m t c hm _ => ?_
  cases c with
  | none => exact .fail hm.good
  | some c => exact h.callClosure callee c hm.good fun v hv => (hargs v hv).mono hm.made

theorem call (h : track.Faithful) (head : Datum) (callee : Sourced) {args : List Sourced}
    (hs : l.Good p s) (hargs : ∀ v ∈ args, l.Backs v) :
    Keeps p l s (track.call head callee args) Backs := by
  unfold Tracker.call
  cases callee.value with
  | native op =>
    exact .bind (.native op _ hs) fun m t v hm hv => .pure hm.good (.plain hv)
  | proc id => exact h.callProc head.text id hs hargs
  | _ => exact .fail hs

/-! ## The forms that make something -/

theorem closure (params : List String) (d : Datum) {limit : Nat} (hs : l.Good (n :: p) s)
    (hn : n ∉ p) (hmakes : l.Makes n .proc) :
    Keeps p l s (Tracked.evalForm limit track n env (.closure params d)) fun m v =>
      m.Backs v ∧ v.source = some n :=
  .bind (.newClosure _ hs hn hmakes) fun _ _ _ hm hid => .pure hm.good ⟨.inr hid, rfl⟩

theorem classDef (h : track.Faithful) (name : String) (base d : Datum) {limit : Nat}
    (hs : l.Good (n :: p) s) (hn : n ∉ p) (hmakes : l.Makes n .object) :
    Keeps p l s (Tracked.evalForm limit track n env (.classDef name base d)) fun m v =>
      m.Backs v ∧ v.source = some n := by
  have hp : p ⊆ n :: p := List.subset_cons_self n p
  refine .bind_of_subset hp (h (n :: p) l s base env hs) fun l₁ s₁ b h₁ _ => ?_
  refine .bind_of_subset hp (.ofExcept b.value.asBase h₁.good) fun l₂ s₂ base h₂ _ => ?_
  have hmakes₂ := hmakes.mono (h₁.trans h₂).begun
  refine .bind (.newObject _ _ h₂.good hn hmakes₂) fun l₃ s₃ frame h₃ hframe => ?_
  refine .bind (h.body d h₃.good) fun l₄ s₄ _ h₄ _ => ?_
  have hframe₄ := h₄.made hframe
  exact .define env name h₄.good (.inr hframe₄)

theorem instantiate (h : track.Faithful) (cls : Datum) (args : List Datum) {limit : Nat}
    (hs : l.Good (n :: p) s) (hn : n ∉ p) (hmakes : l.Makes n .object) :
    Keeps p l s (Tracked.evalForm limit track n env (.instantiate cls args)) fun m v =>
      m.Backs v ∧ v.source = some n := by
  have hp : p ⊆ n :: p := List.subset_cons_self n p
  refine .bind_of_subset hp (h (n :: p) l s cls env hs) fun l₁ s₁ c h₁ _ => ?_
  refine .bind_of_subset hp (.ofExcept (c.value.asObject "new") h₁.good) fun l₂ s₂ cls h₂ _ => ?_
  have hmakes₂ := hmakes.mono (h₁.trans h₂).begun
  refine .bind (.newObject _ _ h₂.good hn hmakes₂) fun l₃ s₃ frame h₃ hframe => ?_
  refine .bind (h.values args h₃.good) fun l₄ s₄ vs h₄ hvs => ?_
  refine .bind (.lookup cls "constructor" h₄.good) fun l₅ s₅ constructor h₅ _ => ?_
  have hframe₅ := h₅.made (h₄.made hframe)
  cases constructor.value with
  | proc id =>
    have hargs : ∀ v ∈ (⟨.object frame, some n⟩ : Sourced) :: vs, l₅.Backs v :=
      List.forall_mem_cons.2 ⟨.inr hframe₅, fun v hv => (hvs v hv).mono h₅.made⟩
    refine .bind (h.callProc "constructor" id h₅.good hargs) fun l₆ s₆ _ h₆ _ => ?_
    exact .pure h₆.good ⟨.inr (h₆.made hframe₅), rfl⟩
  | _ => exact .fail h₅.good

/-! ## The other forms -/

theorem handsOn (h : track.Faithful) {form : Form} {limit : Nat} (hform : form.makes? = none)
    (hs : l.Good p s) : Keeps p l s (Tracked.evalForm limit track n env form) Backs := by
  cases form with
  | number x => exact .pure hs (.plain ⟨nofun, nofun⟩)
  | str text => exact .pure hs (.plain ⟨nofun, nofun⟩)
  | reference name => exact .lookup env name hs
  | declare name value =>
    refine .bind (h p l s value env hs) fun l₁ s₁ v h₁ hv => ?_
    exact (Keeps.define env name h₁.good hv).mono fun _ _ h => h.1
  | assign name value =>
    refine .bind (h p l s value env hs) fun l₁ s₁ v h₁ hv => ?_
    exact .assign env name h₁.good hv
  | setProperty object name value =>
    refine .bind (h p l s object env hs) fun l₁ s₁ o h₁ _ => ?_
    refine .bind (.ofExcept (o.value.asObject "set") h₁.good) fun l₂ s₂ frame h₂ _ => ?_
    refine .bind (.ofExcept (Form.nameIn "prop" name) h₂.good) fun l₃ s₃ name h₃ _ => ?_
    refine .bind (h p l₃ s₃ value env h₃.good) fun l₄ s₄ v h₄ hv => ?_
    exact (Keeps.define frame name h₄.good hv).mono fun _ _ h => h.1
  | property object name =>
    refine .bind (h p l s object env hs) fun l₁ s₁ o h₁ _ => ?_
    refine .bind (.ofExcept (o.value.asObject "prop") h₁.good) fun l₂ s₂ frame h₂ _ => ?_
    refine .bind (.ofExcept (Form.nameIn "prop" name) h₂.good) fun l₃ s₃ name h₃ _ => ?_
    exact .lookup frame name h₃.good
  | block ds =>
    refine .bind (.newFrame _ _ hs) fun l₁ s₁ frame h₁ _ => ?_
    exact h.block ds h₁.good (.plain ⟨nofun, nofun⟩)
  | branch condition consequence alternative =>
    exact .bind (h p l s condition env hs) fun l₁ s₁ test h₁ _ => h p l₁ s₁ _ env h₁.good
  | loop condition d => exact h.loop condition d limit hs (.plain ⟨nofun, nofun⟩)
  | call head args =>
    refine .bind (h p l s head env hs) fun l₁ s₁ callee h₁ _ => ?_
    exact .bind (h.values args h₁.good) fun l₂ s₂ vs h₂ hvs => h.call head callee h₂.good hvs
  | expand d => exact h p l s d env hs
  | closure | classDef | instantiate => cases hform

theorem evalForm (h : track.Faithful) {d : Datum} {form : Form} {limit : Nat}
    (hs : l.Good (n :: p) s) (hn : n ∉ p) (hd : l.begun[n]? = some d)
    (hform : Form.ofDatum d = .ok form) :
    Keeps p l s (Tracked.evalForm limit track n env form) fun m v =>
      m.Backs v ∧ ∀ k, form.makes? = some k → v.source = some n := by
  have hmakes : ∀ k, form.makes? = some k → l.Makes n k := fun k hk => ⟨d, form, hd, hform, hk⟩
  cases form with
  | closure params d =>
    exact (closure params d hs hn (hmakes _ rfl)).mono fun _ _ hv => ⟨hv.1, fun _ _ => hv.2⟩
  | classDef name base d =>
    exact (h.classDef name base d hs hn (hmakes _ rfl)).mono fun _ _ hv => ⟨hv.1, fun _ _ => hv.2⟩
  | instantiate cls args =>
    exact (h.instantiate cls args hs hn (hmakes _ rfl)).mono fun _ _ hv => ⟨hv.1, fun _ _ => hv.2⟩
  | _ =>
    exact (h.handsOn rfl (hs.mono (List.subset_cons_self n p))).mono fun _ _ hv => ⟨hv, nofun⟩

theorem evalDatum (h : track.Faithful) (limit : Nat) : (Tracker.evalDatum limit track).Faithful := by
  intro p l s d env hs
  refine .bind (.begins d hs) fun l₁ s₁ n h₁ hn => ?_
  obtain ⟨hp, hd, hidle⟩ := hn
  have hlt : n < l₁.begun.length := (List.getElem?_eq_some_iff.1 hd).1
  cases hform : Form.ofDatum d with
  | error e => exact .fail h₁.good
  | ok form =>
    have hs₁ : l₁.Good (n :: p) s₁ :=
      ⟨h₁.good.faithful, List.forall_mem_cons.2 ⟨⟨hlt, hidle⟩, h₁.good.idle⟩⟩
    refine .bind (h.evalForm hs₁ hp hd hform) fun l₂ s₂ v h₂ hv => ?_
    have hd₂ : l₂.begun[n]? = some d := (getElem?_begun h₂.begun hlt).trans hd
    have hsource : ∀ k, l₂.Makes n k → v.source = some n :=
      fun k hk => hv.2 k (hk.makes? hd₂ hform)
    have hlt₂ := (List.getElem?_eq_some_iff.1 hd₂).1
    refine .bind (.ends h₂.good hlt₂ hv.1 hsource) fun l₃ s₃ _ h₃ _ => ?_
    exact .pure h₃.good (hv.1.mono h₃.made)

end Tracker.Faithful

theorem Tracker.eval_faithful (fuel : Nat) : (Tracker.eval fuel).Faithful := by
  induction fuel with
  | zero => exact fun p l s d env hs => .spent hs
  | succ fuel ih => exact ih.evalDatum fuel

namespace Tracked.Keeps

variable {i : Interpreter} {p : List Nat} {l : Ledger} {s : Store}

theorem evalGlobal (fuel : Nat) (d : Datum) (hs : l.Good p s) :
    Keeps p l s (evalGlobal fuel i d) Backs :=
  .bind (.log _ _ hs) fun _ _ _ hm _ => (Tracker.eval_faithful fuel).body d hm.good

theorem evalProgram (fuel : Nat) {last : Sourced} (ds : List Datum) (hs : l.Good p s)
    (hlast : l.Backs last) : Keeps p l s (evalProgram fuel i last ds) Backs := by
  induction ds generalizing l s last with
  | nil => exact .pure hs hlast
  | cons d ds ih => exact .bind (evalGlobal fuel d hs) fun m t v hm hv => ih hm.good hv

theorem run (fuel : Nat) (code : String) (hs : l.Good p s) :
    Keeps p l s (run fuel i code) Backs := by
  unfold Tracked.run
  split
  · exact .fail hs
  · exact .mapError (evalProgram fuel _ hs (.plain ⟨nofun, nofun⟩))

theorem evalScript (fuel : Nat) (ds : List Datum) (hs : l.Good p s) :
    Keeps p l s (evalScript fuel i ds) fun _ _ => True := by
  induction ds generalizing l s with
  | nil => exact .pure hs trivial
  | cons d ds ih =>
    refine .bind (.attempt (evalGlobal fuel d hs)) fun l₁ s₁ r h₁ _ => ?_
    cases r with
    | ok v => exact ih h₁.good
    | error e =>
      refine .bind (.log _ _ h₁.good) fun l₂ s₂ _ h₂ _ => ?_
      refine .bind (.log _ _ h₂.good) fun l₃ s₃ _ h₃ _ => ?_
      refine .bind (.log _ _ h₃.good) fun l₄ s₄ _ h₄ _ => ?_
      exact .bind (ih h₄.good) fun l₅ s₅ _ h₅ _ => .pure h₅.good trivial

theorem runScript (fuel : Nat) (script : Script) (hs : l.Good p s) :
    Keeps p l s (runScript fuel i script) fun _ _ => True := by
  refine .bind (.log _ _ hs) fun l₁ s₁ _ h₁ _ => ?_
  refine .bind (.mapError (.ofExcept script.content h₁.good)) fun l₂ s₂ code h₂ _ => ?_
  refine .bind (.mapError (.ofExcept (Datum.readText code) h₂.good)) fun l₃ s₃ ds h₃ _ => ?_
  exact .bind (evalScript fuel ds h₃.good) fun l₄ s₄ _ h₄ _ => .log _ _ h₄.good

theorem serve (fuel : Nat) (request : Request) (hs : l.Good p s) :
    Keeps p l s (serve fuel i request) Backs := by
  cases request with
  | run code => exact .mapError (run fuel code hs)
  | runScript script =>
    refine .mapError (.bind (runScript fuel script hs) fun m t _ hm _ => ?_)
    exact .pure hm.good (.plain ⟨nofun, nofun⟩)
  | eval d => exact .mapError (Tracker.eval_faithful fuel p l s d i.globalFrame hs)
  | evalGlobal d => exact .mapError (evalGlobal fuel d hs)
  | evalIn d env => exact .mapError (Tracker.eval_faithful fuel p l s d env hs)
  | evalBody d env => exact .mapError ((Tracker.eval_faithful fuel).body d hs)

end Tracked.Keeps

end ScopeLisp

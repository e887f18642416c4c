import ScopeLisp.Proofs.Readable

/-!
# Printing and reading

Whatever the reader accepts it makes readable data of (`readable_of_readText`), and readable data are read
back from their texts, each as `Datum.reread` says (`readText_texts`). Reading keeps a stack of the lists
that are still open, so the step is about an arbitrary stack: over the tokens of a datum the reader goes on
as if it had been handed that datum whole (`Readable.readAll_tokens`).
-/

namespace ScopeLisp

namespace Reader

/-- Goes on from where the reading of a datum has come to. -/
def resume (done : List Datum) (ts : List Token) : Progress → Except ReadError (List Datum)
  | .complete d => readAll [] (d :: done) ts
  | .within lists => readAll lists done ts

theorem readAll_of_step {lists : List (List Datum)} {t : Token} {p : Progress}
    (h : step lists t = .ok p) (done : List Datum) (ts : List Token) :
    readAll lists done (t :: ts) = resume done ts p := by
  rw [readAll, h]
  cases p <;> rfl

def Progress.All (P : Datum → Prop) : Progress → Prop
  | .complete d => P d
  | .within lists => ∀ items ∈ lists, ∀ d ∈ items, P d

section All

variable {P : Datum → Prop} {lists : List (List Datum)}

theorem put_all {d : Datum} (hd : P d) (h : (Progress.within lists).All P) :
    (put d lists).All P := by
  cases lists with
  | nil => exact hd
  | cons items outer =>
    obtain ⟨hitems, houter⟩ := List.forall_mem_cons.1 h
    exact List.forall_mem_cons.2 ⟨List.forall_mem_cons.2 ⟨hd, hitems⟩, houter⟩

theorem step_all {t : Token} {p : Progress}
    (hitem : ∀ text d, t = .item text → Datum.ofItem text = .ok d → P d)
    (hlist : ∀ items, (∀ d ∈ items, P d) → P (.list items))
    (hlists : (Progress.within lists).All P) (h : step lists t = .ok p) : p.All P := by
  cases t with
  | leftParen =>
    cases h
    exact List.forall_mem_cons.2 ⟨List.forall_mem_nil _, hlists⟩
  | rightParen =>
    cases lists with
    | nil => cases h
    | cons items outer =>
      cases h
      obtain ⟨hitems, houter⟩ := List.forall_mem_cons.1 hlists
      exact put_all (hlist _ fun d hd => hitems d (List.mem_reverse.1 hd)) houter
  | item text =>
    cases hd : Datum.ofItem text with
    | error e =>
      rw [step, hd] at h
      cases h
    | ok d =>
      rw [step, hd] at h
      cases h
      exact put_all (hitem text d rfl hd) hlists

/-- What holds of the items of a text, and of lists of such data, holds of all data read. -/
theorem readAll_all {ts : List Token} {done es : List Datum}
    (hitem : ∀ text d, .item text ∈ ts → Datum.ofItem text = .ok d → P d)
    (hlist : ∀ items, (∀ d ∈ items, P d) → P (.list items))
    (hlists : (Progress.within lists).All P) (hdone : ∀ d ∈ done, P d)
    (h : readAll lists done ts = .ok es) : ∀ e ∈ es, P e := by
  induction ts generalizing lists done with
  | nil =>
    rw [readAll] at h
    split at h
    · cases h
      exact fun e he => hdone e (List.mem_reverse.1 he)
    · cases h
  | cons t ts ih =>
    have hrest : ∀ text d, .item text ∈ ts → Datum.ofItem text = .ok d → P d :=
      fun text d ht => hitem text d (List.mem_cons_of_mem _ ht)
    cases hp : step lists t with
    | error e => simp [readAll, hp] at h
    | ok p =>
      have hall : p.All P :=
        step_all (fun text d ht => hitem text d (ht ▸ List.mem_cons_self)) hlist hlists hp
      rw [readAll_of_step hp] at h
      cases p with
      | complete d =>
        have hdone' : ∀ d' ∈ d :: done, P d' := List.forall_mem_cons.2 ⟨hall, hdone⟩
        exact ih hrest (List.forall_mem_nil _) hdone' h
      | within lists => exact ih hrest hall hdone h

end All

end Reader

open Reader

namespace Datum

/-- The reader makes readable data only. -/
theorem readable_of_readText {code : String} {es : List Datum} (h : readText code = .ok es) :
    es ≠ [] ∧ ∀ e ∈ es, e.Readable := by
  unfold readText at h
  split at h
  · cases h
  · next ts hscan =>
    split at h
    · cases h
    · next hne =>
      split at h
      · cases h
      · refine ⟨?_, ?_⟩
        · obtain ⟨t, ts, rfl⟩ := List.exists_cons_of_ne_nil hne
          rw [readTokens_cons] at h
          split at h
          · cases h
          · intro hnil
            subst hnil
            cases hrest : readTokens _ with
            | error e => rw [hrest] at h; cases h
            | ok ds => rw [hrest] at h; cases h
        · refine readAll_all (fun text d ht hd => ?_) (fun _ => .list) (List.forall_mem_nil _)
            (List.forall_mem_nil _) h
          exact readable_of_ofItem (Token.wellFormed_of_scan? hscan _ ht) hd

/-- Over the tokens of a datum the reader goes on as if it had been handed the datum. -/
theorem Readable.readAll_tokens {d : Datum} (h : d.Readable) (lists : List (List Datum))
    (done : List Datum) (ts : List Token) :
    readAll lists done (d.tokens ++ ts) = resume done ts (put d.reread lists) := by
  induction h generalizing lists ts with
  | number h => exact readAll_of_step (by rw [step, text, chars, ofItem_number h]; rfl) done ts
  | str h => exact readAll_of_step (by rw [step, text, chars, ofItem_quoted]; rfl) done ts
  | symbol _ hchars hstart =>
    refine readAll_of_step ?_ done ts
    rw [step, text, chars, String.ofList_toList, ofItem_symbol hchars hstart]
    rfl
  | @list items _ ih =>
    have hitems : ∀ (ds acc : List Datum) (rest : List Token),
        (∀ d ∈ ds, d ∈ items) → readAll (acc :: lists) done (tokensAll ds ++ rest) =
          readAll (((rereadAll ds).reverse ++ acc) :: lists) done rest := by
      intro ds
      induction ds with
      | nil => exact fun _ _ _ => rfl
      | cons d ds ihds =>
        intro acc rest hds
        rw [tokensAll, List.append_assoc, ih d (hds d List.mem_cons_self), put, resume]
        rw [ihds _ _ fun d' hd' => hds d' (List.mem_cons_of_mem _ hd')]
        simp [rereadAll]
    rw [tokens, List.cons_append, List.append_assoc, readAll_of_step rfl, resume]
    rw [hitems items [] _ fun _ h => h, List.singleton_append, readAll_of_step rfl]
    simp [reread]

theorem readTokens_tokensAll {ds : List Datum} (h : ∀ d ∈ ds, d.Readable) :
    readTokens (tokensAll ds) = .ok (ds.map reread) := by
  have hdone : ∀ done, readAll [] done (tokensAll ds) = .ok (done.reverse ++ ds.map reread) := by
    induction ds with
    | nil =>
      intro done
      simp [tokensAll, readAll]
    | cons d ds ih =>
      intro done
      have hds : ∀ d' ∈ ds, d'.Readable := fun d' hd' => h d' (List.mem_cons_of_mem _ hd')
      rw [tokensAll, (h d List.mem_cons_self).readAll_tokens, put, resume, ih hds]
      simp
  exact hdone []

theorem count_tokensAll {ds : List Datum}
    (h : ∀ d ∈ ds, d.tokens.count .leftParen = d.tokens.count .rightParen) :
    (tokensAll ds).count .leftParen = (tokensAll ds).count .rightParen := by
  induction ds with
  | nil => rfl
  | cons d ds ih =>
    rw [tokensAll, List.count_append, List.count_append, h d List.mem_cons_self,
      ih fun d' hd' => h d' (List.mem_cons_of_mem _ hd')]

/-- The parentheses of a datum match, so there are as many of either kind. -/
theorem Readable.count_tokens {d : Datum} (h : d.Readable) :
    d.tokens.count .leftParen = d.tokens.count .rightParen := by
  induction h with
  | @list items _ ih =>
    have hitems := count_tokensAll ih
    simp [tokens, hitems]
  | _ => rfl

theorem tokensAll_ne_nil {ds : List Datum} (h : ds ≠ []) : tokensAll ds ≠ [] := by
  obtain ⟨d, ds, rfl⟩ := List.exists_cons_of_ne_nil h
  cases d <;> simp [tokensAll, tokens]

theorem intercalate_text (ds : List Datum) :
    " ".intercalate (ds.map text) = String.ofList (charsAll ds) := by
  induction ds with
  | nil => simp [charsAll]
  | cons d ds ih =>
    by_cases hnil : ds = []
    · subst hnil
      simp [charsAll, text]
    · rw [List.map_cons, String.intercalate_cons_of_ne_nil (by simpa using hnil), ih,
        charsAll_cons d hnil, text]
      simp [String.ofList_append, String.append_assoc]

theorem readText_texts {ds : List Datum} (hne : ds ≠ []) (h : ∀ d ∈ ds, d.Readable) :
    readText (" ".intercalate (ds.map text)) = .ok (ds.map reread) := by
  have hscan : Token.scan? (" ".intercalate (ds.map text)) = some (tokensAll ds) := by
    rw [intercalate_text]
    exact (writes_charsAll fun d hd => (h d hd).writes).scan?
  have hcount := count_tokensAll fun d hd => (h d hd).count_tokens
  rw [readText, hscan]
  simp only [if_neg (tokensAll_ne_nil hne), hcount]
  rw [if_neg (not_not_intro rfl), readTokens_tokensAll h]

theorem reread_of_isInf {x : Float} (h : x.isInf = true) :
    reread (.number x) = .symbol "inf" ∨ reread (.number x) = .symbol "-inf" := by
  rw [reread, if_pos h, Number.text, Number.chars_of_infinite ((Number.isInf_iff x).1 h)]
  split
  · exact .inr rfl
  · exact .inl rfl

/-- **Round trip.** What was read is printed as text that reads again, as data with the same texts. They
are the same data if and only if none of the numbers is infinite. -/
theorem round_trip {code : String} {es : List Datum} (h : readText code = .ok es) :
    readText (" ".intercalate (es.map text)) = .ok (es.map reread) ∧
      (es.map reread).map text = es.map text ∧
      (es.map reread = es ↔ ∀ e ∈ es, ∀ x, Inside (.number x) e → x.isInf = false) ∧
      ∀ x : Float, x.isInf = true →
        reread (.number x) = .symbol "inf" ∨ reread (.number x) = .symbol "-inf" := by
  obtain ⟨hne, hreadable⟩ := readable_of_readText h
  refine ⟨readText_texts hne hreadable, ?_, ?_, fun _ => reread_of_isInf⟩
  · rw [List.map_map]
    exact List.map_congr_left fun e he => (hreadable e he).text_reread
  · rw [map_reread_eq_iff]
    constructor
    · exact fun h e he => (hreadable e he).reread_eq_iff.1 (h e he)
    · exact fun h e he => (hreadable e he).reread_eq_iff.2 (h e he)

theorem round_trip_of_large_literal :
    ∃ es, readText "(a \"x\\\"y\" -2.50) -1e999" = .ok es ∧
      es.map text = ["(a \"x\\\"y\" -2.5)", "-inf"] ∧
      readText (" ".intercalate (es.map text)) = .ok (es.map reread) ∧
      (es.map reread).map text = es.map text ∧
      (es.map reread = es ↔ ∀ e ∈ es, ∀ x, Inside (.number x) e → x.isInf = false) ∧
      ∀ x : Float, x.isInf = true →
        reread (.number x) = .symbol "inf" ∨ reread (.number x) = .symbol "-inf" := by
  have hread : (readText "(a \"x\\\"y\" -2.50) -1e999").map (List.map text) =
      .ok ["(a \"x\\\"y\" -2.5)", "-inf"] := by decide +kernel
  cases hes : readText "(a \"x\\\"y\" -2.50) -1e999" with
  | error e =>
    rw [hes] at hread
    cases hread
  | ok es =>
    rw [hes] at hread
    exact ⟨es, rfl, Except.ok.inj hread, round_trip hes⟩

end Datum

end ScopeLisp

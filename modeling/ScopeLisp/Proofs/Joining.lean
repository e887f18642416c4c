import Mathlib.Control.Monad.Basic
import ScopeLisp.Interpreter
import ScopeLisp.Proofs.Acceptance
import ScopeLisp.Proofs.Scanning

/-!
# Joined texts

A text that is read leaves nothing pending at its end but an item or a comment, and a newline settles
both. So a text after it is scanned, read and run as it would be by itself
(`Interpreter.run_joined`). The three steps are `Token.scan?_joined` for the characters,
`Datum.readText_joined` for the tokens and the errors, and `Interpreter.evalProgram_append` for the
forms.
-/

namespace ScopeLisp

/-! ## Scanning -/

namespace Scanner

/-- The tokens completed so far do not matter for those to come. -/
theorem scan_eq (p : Progress) (cs : List Char) :
    scan p cs = ⟨(scan ⟨p.mode, []⟩ cs).mode, (scan ⟨p.mode, []⟩ cs).done ++ p.done⟩ := by
  induction cs generalizing p with
  | nil => rfl
  | cons c cs ih =>
    rw [scan_cons, scan_cons, ih (p.push c), ih (Progress.push ⟨p.mode, []⟩ c)]
    simp [Progress.push]

theorem finish_cons_done (m : Mode) (done before : List Token) :
    Progress.finish ⟨m, done ++ before⟩ =
      (Progress.finish ⟨m, done⟩).map (before.reverse ++ ·) := by
  cases m <;> simp [Progress.finish]

/-- Wherever a text may end, a newline ends what is pending. -/
theorem push_newline {p : Progress} {ts : List Token} (h : p.finish = some ts) :
    p.push '\n' = ⟨.between, ts.reverse⟩ := by
  have hstep : step p.mode '\n' = (.between, p.mode.flush) ∧ ts = p.done.reverse ++ p.mode.flush := by
    cases hm : p.mode with
    | between | bare | comment =>
      rw [Progress.finish, hm] at h
      cases h
      exact ⟨rfl, rfl⟩
    | quoted | escaped =>
      rw [Progress.finish, hm] at h
      cases h
  obtain ⟨hstep, rfl⟩ := hstep
  simp [Progress.push, hstep]

end Scanner

open Scanner

theorem Token.scan?_joined {a : String} {ts : List Token} (ha : Token.scan? a = some ts)
    (b : String) :
    Token.scan? (a ++ "\n" ++ b) = (Token.scan? b).map (ts ++ ·) := by
  have hchars : (a ++ "\n" ++ b).toList = a.toList ++ '\n' :: b.toList := by simp
  rw [Token.scan?, hchars, scan_append, scan_cons, push_newline ha, scan_eq, finish_cons_done,
    List.reverse_reverse]
  rfl

/-! ## Reading -/

namespace Reader

/-- After data that were read in full the reader goes on as at the beginning. -/
theorem readAll_append {lists : List (List Datum)} {done es : List Datum} {ts : List Token}
    (h : readAll lists done ts = .ok es) (us : List Token) :
    readAll lists done (ts ++ us) = readAll [] es.reverse us := by
  induction ts generalizing lists done with
  | nil =>
    rw [readAll] at h
    split at h
    · next hnil =>
      cases h
      rw [hnil, List.reverse_reverse, List.nil_append]
    · cases h
  | cons t ts ih =>
    rw [readAll] at h
    rw [List.cons_append, readAll]
    cases hp : step lists t with
    | error e =>
      rw [hp] at h
      cases h
    | ok p =>
      rw [hp] at h
      cases p with
      | complete d => exact ih h
      | within lists => exact ih h

end Reader

namespace Datum

theorem readTokens_append {ts : List Token} {es : List Datum} (h : readTokens ts = .ok es)
    (us : List Token) : readTokens (ts ++ us) = (readTokens us).map (es ++ ·) := by
  rw [readTokens, Reader.readAll_append h, Reader.readAll_done, List.reverse_reverse]
  rfl

/-- What it takes for a text to be read. -/
theorem scan?_of_readText {code : String} {es : List Datum} (h : readText code = .ok es) :
    ∃ ts, Token.scan? code = some ts ∧ ts ≠ [] ∧
      ts.count .leftParen = ts.count .rightParen ∧ readTokens ts = .ok es := by
  have hverdict := verdict_readText code
  rw [h] at hverdict
  cases hverdict with
  | @data ts _ hscan hne hcount _ _ =>
    rw [readText_of_scan? hscan hcount hne] at h
    exact ⟨ts, hscan, hne, hcount, h⟩

/-- The data of both texts, or the error of the second; that it has no tokens is no error here. -/
def joined (es : List Datum) : Except ReadError (List Datum) → Except ReadError (List Datum)
  | .ok ds => .ok (es ++ ds)
  | .error .empty => .ok es
  | .error e => .error e

theorem joined_readTokens {us : List Token} (hcount : us.count .leftParen = us.count .rightParen)
    (es : List Datum) : joined es (readTokens us) = (readTokens us).map (es ++ ·) := by
  rcases readTokens_of_count_eq hcount with ⟨e, hfault, hr⟩ | ⟨-, ds, hr, -⟩
  · obtain ⟨text, rfl⟩ := hfault.eq_erroneousToken
    rw [hr]
    rfl
  · rw [hr]
    rfl

theorem readText_joined {a : String} {es : List Datum} (ha : readText a = .ok es) (b : String) :
    readText (a ++ "\n" ++ b) = joined es (readText b) := by
  obtain ⟨ts, hscan, hne, hcount, hread⟩ := scan?_of_readText ha
  cases hb : Token.scan? b with
  | none =>
    rw [readText, readText, Token.scan?_joined hscan, hb]
    rfl
  | some us =>
    have hjoined : Token.scan? (a ++ "\n" ++ b) = some (ts ++ us) := by
      rw [Token.scan?_joined hscan, hb]
      rfl
    have hne' : ts ++ us ≠ [] := List.append_ne_nil_of_left_ne_nil hne us
    by_cases hnil : us = []
    · subst hnil
      rw [readText_of_scan? hjoined (by simpa using hcount) hne', readText, hb, List.append_nil]
      exact hread
    · by_cases hcount' : us.count .leftParen = us.count .rightParen
      · have hboth : (ts ++ us).count .leftParen = (ts ++ us).count .rightParen := by
          rw [List.count_append, List.count_append, hcount, hcount']
        rw [readText_of_scan? hjoined hboth hne', readText_of_scan? hb hcount' hnil,
          readTokens_append hread, joined_readTokens hcount']
      · have hboth : (ts ++ us).count .leftParen ≠ (ts ++ us).count .rightParen := by
          rw [List.count_append, List.count_append, hcount]
          omega
        rw [readText, readText, hjoined, hb]
        simp only [if_neg hne', if_pos hboth, if_neg hnil, if_pos hcount']
        rfl

end Datum

/-! ## Running -/

theorem Action.mapError_bind {ε δ α β : Type} (x : Action ε α) (f : α → Action ε β) (g : ε → δ) :
    (x >>= f).mapError g = x.mapError g >>= fun a => (f a).mapError g := by
  funext s
  simp only [mapError, bind_apply]
  cases x s <;> rfl

namespace Interpreter

variable {fuel : Nat} {i : Interpreter}

theorem evalProgram_append (last : Value) (ds es : List Datum) :
    i.evalProgram fuel last (ds ++ es) =
      i.evalProgram fuel last ds >>= fun v => i.evalProgram fuel v es := by
  induction ds generalizing last with
  | nil => rfl
  | cons d ds ih =>
    rw [List.cons_append, evalProgram, evalProgram, bind_assoc]
    simp only [ih]

/-- The value before the first form is that of no form. -/
theorem evalProgram_last {es : List Datum} (hne : es ≠ []) (v w : Value) :
    i.evalProgram fuel v es = i.evalProgram fuel w es := by
  cases es with
  | nil => exact absurd rfl hne
  | cons d ds => rfl

theorem run_of_readText {code : String} {es : List Datum} (h : Datum.readText code = .ok es) :
    i.run fuel code = (i.evalProgram fuel .unit es).mapError .run := by
  rw [run, h]

theorem run_joined {a b : String} {es ds : List Datum} (ha : Datum.readText a = .ok es)
    (hb : Datum.readText b = .ok ds) :
    i.run fuel (a ++ "\n" ++ b) = i.run fuel a >>= fun _ => i.run fuel b := by
  have hboth : Datum.readText (a ++ "\n" ++ b) = .ok (es ++ ds) := by
    rw [Datum.readText_joined ha, hb]
    rfl
  have hlast : ∀ v w, i.evalProgram fuel v ds = i.evalProgram fuel w ds :=
    evalProgram_last (Datum.ne_nil_of_readText hb)
  rw [run_of_readText hboth, run_of_readText ha, run_of_readText hb, evalProgram_append,
    Action.mapError_bind]
  funext s
  rw [Action.bind_apply, Action.bind_apply]
  cases (i.evalProgram fuel .unit es).mapError ProgramError.run s with
  | value v t => simp only [hlast v .unit]
  | error e t => rfl
  | unfinished => rfl

theorem run_of_error {code : String} {e : ReadError} (h : Datum.readText code = .error e)
    (s : State) : i.run fuel code s = .error (.read e) s := by
  rw [run, h]
  rfl

/-- **Running one text after the other is running them joined by a newline.** After a text that can
be read, a second one adds its forms to it if it can be read too, nothing if it has no tokens, and
otherwise its error. So both run in turn, the second one if the first ends well. A text that cannot
be read is refused as a whole, and nothing happens. -/
theorem run_newline :
    (∀ (a b : String) (es : List Datum), Datum.readText a = .ok es →
      Datum.readText (a ++ "\n" ++ b) =
        match Datum.readText b with
        | .ok ds => .ok (es ++ ds)
        | .error .empty => .ok es
        | .error e => .error e) ∧
    (∀ (fuel : Nat) (i : Interpreter) (s : State) (a b : String) (es ds : List Datum),
      Datum.readText a = .ok es → Datum.readText b = .ok ds →
      i.run fuel (a ++ "\n" ++ b) s =
        match i.run fuel a s with
        | .value _ t => i.run fuel b t
        | .error e t => .error e t
        | .unfinished => .unfinished) ∧
    ∀ (fuel : Nat) (i : Interpreter) (s : State) (code : String) (e : ReadError),
      Datum.readText code = .error e → i.run fuel code s = .error (.read e) s := by
  refine ⟨fun a b es ha => ?_, fun fuel i s a b es ds ha hb => ?_, fun fuel i s code e h => ?_⟩
  · rw [Datum.readText_joined ha]
    cases Datum.readText b with
    | ok ds => rfl
    | error e => cases e <;> rfl
  · rw [run_joined ha hb, Action.bind_apply]
    cases i.run fuel a s <;> rfl
  · exact run_of_error h s

/-- The first text ends in a comment with a quote in it, and the form of the second one fails. -/
theorem run_newline_after_comment :
    let a := "(lambda (f) f) ; \""
    let b := "nope"
    let es : List Datum := [.list [.symbol "lambda", .list [.symbol "f"], .symbol "f"]]
    let s : State := ⟨(({} : Store).addFrame .global none).2, {}⟩
    Datum.readText a = .ok es ∧ Datum.readText b = .ok [.symbol "nope"] ∧
      Datum.readText (a ++ "\n" ++ b) = .ok (es ++ [.symbol "nope"]) ∧
      (∃ t, (run 9 ⟨0⟩ a s).result? = some (.ok (.proc 0), t) ∧
        run 9 ⟨0⟩ (a ++ "\n" ++ b) s = .error (.run (.notDefined "nope")) t) ∧
      run 9 ⟨0⟩ "(f) (1x)" s = .error (.read (.erroneousToken "1x")) s := by
  intro a b es s
  have ha : Datum.readText a = .ok es := by decide +kernel
  have hb : Datum.readText b = .ok [.symbol "nope"] := by decide +kernel
  refine ⟨ha, hb, ?_, ?_, run_newline.2.2 9 ⟨0⟩ s _ _ (by rfl)⟩
  · rw [run_newline.1 a b es ha, hb]
  · have hrun : run 9 ⟨0⟩ a s = .value (.proc 0) ⟨⟨s.store.frames, #[⟨["f"], .symbol "f", 0⟩]⟩, {}⟩ := by
      decide +kernel
    refine ⟨_, by rw [hrun]; rfl, ?_⟩
    rw [run_newline.2.1 9 ⟨0⟩ s a b es _ ha hb, hrun]
    decide +kernel

end Interpreter

end ScopeLisp

import ScopeLisp.Proofs.FormParts
import ScopeLisp.Proofs.PrintRead
import ScopeLisp.Proofs.ScopeTree

/-!
# The texts of closures

The text of a closure is that of the form that makes it (`Closure.datum`). If programs come from texts
alone, that form is readable: the reader makes readable data only, sugar is rewritten into readable data,
and so the bodies of closures are readable too (`Discipline.readable`). Reading the text of a closure thus
gives back its form, and evaluating this makes the same closure again. What cannot be read back is an
infinite number, as always.
-/

namespace ScopeLisp

theorem Datum.hereditary_readable : Hereditary Readable where
  item h hd := by
    cases h with
    | list h => exact h _ hd
  list := .list
  keyword tag htag := by
    have hall : (["if", "var", "lambda"].all fun tag => tag.toList ≠ [] &&
        tag.toList.all isSymbolChar && !startsNumber tag.toList) = true := by decide
    have h := List.all_eq_true.1 hall tag htag
    simp only [Bool.and_eq_true, decide_eq_true_eq, Bool.not_eq_true', List.all_eq_true] at h
    exact .symbol h.1.1 h.1.2 h.2

/-! ## The form of a closure -/

/-- The form that makes a closure, in the frame that the closure was made in. -/
def Closure.datum (c : Closure) : Datum :=
  .list [.symbol "lambda", .list (c.params.map .symbol), c.body]

namespace Closure

theorem ofDatum_datum (c : Closure) : Form.ofDatum c.datum = .ok (.closure c.params c.body) := by
  show (c.params.map Datum.symbol).mapM (Form.nameIn "lambda (in params)") >>= _ = _
  rw [Form.mapM_nameIn_symbol]
  rfl

theorem eq_datum_of_ofDatum {d body : Datum} {params : List String} (scope : FrameId)
    (h : Form.ofDatum d = .ok (.closure params body)) : d = (Closure.mk params body scope).datum := by
  unfold Form.ofDatum at h
  split at h
  iterate 4 cases h
  · obtain ⟨rfl, rfl⟩ := Form.eq_lambda_of_ofTag h
    rfl
  · cases h

theorem text_eq (c : Closure) : c.text = c.datum.text := by
  have hparams : " ".intercalate c.params = String.ofList (Datum.charsAll (c.params.map .symbol)) := by
    rw [← Datum.intercalate_text, List.map_map]
    congr 1
    simp [Function.comp_def, Datum.text, Datum.chars]
  have hdatum : c.datum.chars = "(lambda (".toList ++
      (Datum.charsAll (c.params.map .symbol) ++ (") ".toList ++ (c.body.chars ++ [')']))) := by
    rw [datum, Datum.chars_list, Datum.charsAll_cons _ (List.cons_ne_nil _ _),
      Datum.charsAll_cons _ (List.cons_ne_nil _ _), Datum.chars_list, Datum.charsAll, Datum.chars]
    simp
  rw [← String.toList_inj, Closure.text, hparams, Datum.text, Datum.text, hdatum]
  simp

/-- Evaluated in the frame of the closure, its form makes the closure once more. -/
theorem eval_datum (c : Closure) (fuel : Nat) (s : State) :
    eval (fuel + 1) c.datum c.scope s =
      .value (.proc s.store.closures.size) ⟨(s.store.addClosure c).2, s.console⟩ := by
  rw [eval_succ, evalDatum, c.ofDatum_datum]
  rfl

theorem inside_datum {c : Closure} {x : Float} :
    Datum.Inside (.number x) c.datum ↔ Datum.Inside (.number x) c.body := by
  constructor
  · intro h
    obtain ⟨d, hd, h⟩ := Datum.inside_list.1 h
    simp only [List.mem_cons, List.not_mem_nil, or_false] at hd
    rcases hd with rfl | rfl | rfl
    · cases h
    · obtain ⟨d, hd, h⟩ := Datum.inside_list.1 h
      obtain ⟨name, -, rfl⟩ := List.mem_map.1 hd
      cases h
    · exact h
  · exact fun h => .item h (by simp)

theorem readText_text {c : Closure} (hc : c.datum.Readable)
    (hbody : ∀ x, Datum.Inside (.number x) c.body → x.isInf = false) :
    Datum.readText c.text = .ok [c.datum] := by
  have hreread : c.datum.reread = c.datum :=
    hc.reread_eq_iff.2 fun x hx => hbody x (inside_datum.1 hx)
  have h := Datum.readText_texts (List.cons_ne_nil c.datum []) (by simpa using hc)
  rw [c.text_eq]
  simpa [hreread] using h

end Closure

/-! ## Programs that come from texts -/

/-- Every closure is made by a form that the reader could have made. -/
def Discipline.readable : Discipline where
  Good s := ∀ (id : ClosureId) (c : Closure), s.closures[id]? = some c → c.datum.Readable
  Step _ _ := True
  Scope _ _ := True
  Home _ _ := True
  Fit _ _ := True
  Code := Datum.Readable
  step_refl _ := trivial
  step_trans _ _ := trivial
  scope_mono _ _ _ := trivial
  home_mono _ _ _ := trivial
  fit_mono _ _ _ := trivial
  scope_of_home _ := trivial
  parts := Datum.hereditary_readable.parts
  fit_plain _ := trivial
  fit_lookup _ _ _ := trivial
  home_object _ _ := trivial
  closure hs _ hc := ⟨trivial, Datum.hereditary_readable.item (hs _ _ hc) (by simp)⟩
  define _ hs _ _ := ⟨hs, trivial⟩
  assign hs _ _ _ := ⟨hs, trivial⟩
  addFrame _ hs _ _ := ⟨hs, trivial, trivial, fun _ => trivial⟩
  addClosure {s d params body env} hs _ hd hform := by
    refine ⟨fun id c hc => ?_, trivial, trivial⟩
    rw [Store.closures_addClosure] at hc
    split at hc
    · cases hc
      rwa [← Closure.eq_datum_of_ofDatum env hform]
    · exact hs id c hc

def Request.IsText : Request → Prop
  | .run _ | .runScript _ => True
  | _ => False

theorem Request.readable_dataOf (code : String) : ∀ d ∈ dataOf code, d.Readable := by
  intro d hd
  unfold dataOf at hd
  cases hread : Datum.readText code with
  | error e =>
    rw [hread] at hd
    cases hd
  | ok ds =>
    rw [hread] at hd
    exact (Datum.readable_of_readText hread).2 d hd

theorem Request.IsText.readable {request : Request} (h : request.IsText) :
    ∀ d ∈ request.data, d.Readable := by
  cases request with
  | run code => exact readable_dataOf code
  | runScript script =>
    intro d hd
    rw [Request.data] at hd
    cases hcontent : script.content with
    | error e =>
      rw [hcontent] at hd
      cases hd
    | ok code =>
      rw [hcontent] at hd
      exact readable_dataOf code d hd
  | _ => exact h.elim

namespace Session

/-- A session in which the interpreter is given nothing but texts to run. -/
inductive ReachedByTexts (i : Interpreter) : Session → Prop
  | starts {s : Session} (h : Starts i s) : ReachedByTexts i s
  | answered {s : Session} {fuel : Nat} {request : Request} {v : Value} {t : State}
      (h : ReachedByTexts i s) (htext : request.IsText)
      (hrun : i.serve fuel request s.state = .value v t) : ReachedByTexts i ⟨t, v :: s.answers⟩
  | failed {s : Session} {fuel : Nat} {request : Request} {e : RequestError} {t : State}
      (h : ReachedByTexts i s) (htext : request.IsText)
      (hrun : i.serve fuel request s.state = .error e t) : ReachedByTexts i ⟨t, s.answers⟩

/-- Some name is bound to the value, or the host was given it. -/
def Has (s : Session) (v : Value) : Prop :=
  (∃ f name, (s.state.store.own f).get? name = some v) ∨ v ∈ s.answers

namespace ReachedByTexts

variable {i : Interpreter} {s : Session}

theorem reached (h : ReachedByTexts i s) : Reached i s := by
  have next : ∀ {s t : Session}, Reached i s → Next i s t → Reached i t :=
    fun ⟨start, hstart, hlater⟩ hnext => ⟨start, hstart, hlater.tail hnext⟩
  have frame : ∀ {s : Session} {request : Request}, Reached i s → request.IsText →
      request.frame i < s.state.store.frames.size := by
    intro s request hs htext
    have hframe : request.frame i = 0 := by
      cases request with
      | run | runScript => exact hs.globalFrame_eq
      | _ => exact htext.elim
    rw [hframe]
    exact (hs.upheld Discipline.total_linked Store.Linked.fresh).1.good.size_pos
  induction h with
  | starts h => exact ⟨_, h, .refl⟩
  | answered _ htext hrun ih => exact next ih (.answered (frame ih htext) hrun)
  | failed _ htext hrun ih => exact next ih (.failed (frame ih htext) hrun)

theorem good_readable (h : ReachedByTexts i s) : Discipline.readable.Good s.state.store := by
  have serve : ∀ {s : State} {fuel : Nat} {request : Request} {r : Except RequestError Value}
      {t : State}, Discipline.readable.Good s.store → request.IsText →
      (i.serve fuel request s).result? = some (r, t) → Discipline.readable.Good t.store :=
    fun hs htext hrun =>
      ((Discipline.serve_keeps _ hs trivial htext.readable).of_result? hrun).1.good
  induction h with
  | starts h =>
    intro id c hc
    rw [h.eq.2.1, Store.closures_fresh] at hc
    cases hc
  | answered _ htext hrun ih => exact serve ih htext (by rw [hrun]; rfl)
  | failed _ htext hrun ih => exact serve ih htext (by rw [hrun]; rfl)

/-- **Closures print as source that reads back.** If an interpreter was only given texts, the text of
every closure that is bound to a name or that the host was given reads as one datum, unless there is
an infinite number in its body. Evaluated in the frame of the closure, the datum makes a closure with
the same parameters and body in the same frame, and no frame changes. -/
theorem closures_read_back (h : ReachedByTexts i s) {id : ClosureId} (hid : s.Has (.proc id)) :
    ∃ c, s.state.store.closures[id]? = some c ∧
      ((∀ x, Datum.Inside (.number x) c.body → x.isInf = false) →
        ∃ d, Datum.readText ((Value.proc id).text s.state.store) = .ok [d] ∧
          ∀ fuel, ∃ id' t,
            eval (fuel + 1) d c.scope s.state = .value (.proc id') ⟨t, s.state.console⟩ ∧
            t.closures[id']? = some c ∧ t.frames = s.state.store.frames) := by
  obtain ⟨hlinked, -⟩ := h.reached.upheld Discipline.total_linked Store.Linked.fresh
  have hholds : s.state.store.Holds (.proc id) := by
    rcases hid with ⟨f, name, hv⟩ | hv
    · exact hlinked.good.value f name _ hv
    · exact hlinked.fit _ hv
  obtain ⟨c, hc⟩ : ∃ c, s.state.store.closures[id]? = some c := ⟨_, Array.getElem?_eq_getElem hholds⟩
  refine ⟨c, hc, fun hbody => ⟨c.datum, ?_, fun fuel => ?_⟩⟩
  · have htext : (Value.proc id).text s.state.store = c.text := by
      rw [Value.text, hc]
      rfl
    rw [htext]
    exact Closure.readText_text (h.good_readable id c hc) hbody
  · refine ⟨_, _, c.eval_datum fuel s.state, ?_, rfl⟩
    rw [Store.closures_addClosure, if_pos rfl]

/-- A closure that another one made, with a `switch`, an escaped quote and a number in its body. -/
theorem closures_read_back_of_inner : ∃ s, ReachedByTexts ⟨0⟩ s ∧ s.Has (.proc 1) ∧
    (Value.proc 1).text s.state.store =
      "(lambda (m k) (switch ((= m \"a\\\"b\") -2.5) (else (+ n k))))" ∧
    ∃ c, s.state.store.closures[1]? = some c ∧
      (∀ x, Datum.Inside (.number x) c.body → x.isInf = false) ∧
      ∃ d, Datum.readText ((Value.proc 1).text s.state.store) = .ok [d] ∧
        ∀ fuel, ∃ id' t,
          eval (fuel + 1) d c.scope s.state = .value (.proc id') ⟨t, s.state.console⟩ ∧
          t.closures[id']? = some c ∧ t.frames = s.state.store.frames := by
  let code := "(def make (n) (lambda (m k) (switch ((= m \"a\\\"b\") -2.50) (else (+ n k))))) (make 1)"
  have hserve : ((Interpreter.mk 0).serve 20 (.run code) ⟨Store.fresh, {}⟩).result?.map
      (fun x => (x.1.toOption, (Value.proc 1).text x.2.store,
        (x.2.store.closures[1]?).map fun c => decide (c.datum.reread = c.datum))) =
      some (some (.proc 1), "(lambda (m k) (switch ((= m \"a\\\"b\") -2.5) (else (+ n k))))",
        some true) := by
    decide +kernel
  have hstart : ReachedByTexts ⟨0⟩ ⟨⟨Store.fresh, {}⟩, []⟩ :=
    .starts ⟨{}, Interpreter.fresh_apply {}, rfl⟩
  cases hrun : (Interpreter.mk 0).serve 20 (.run code) ⟨Store.fresh, {}⟩ with
  | unfinished =>
    rw [hrun] at hserve
    cases hserve
  | error e t =>
    rw [hrun] at hserve
    cases hserve
  | value v t =>
    rw [hrun] at hserve
    simp only [Outcome.result?, Option.map_some, Option.some.injEq, Prod.mk.injEq] at hserve
    obtain ⟨hv, htext, hreread⟩ := hserve
    cases hv
    have htext' : (Request.run code).IsText := trivial
    have hreached : ReachedByTexts ⟨0⟩ ⟨t, [.proc 1]⟩ := .answered hstart htext' hrun
    have hhas : Session.Has ⟨t, [.proc 1]⟩ (.proc 1) := .inr List.mem_cons_self
    obtain ⟨c, hc, hback⟩ := closures_read_back hreached hhas
    have hbody : ∀ x, Datum.Inside (.number x) c.body → x.isInf = false := by
      obtain ⟨c', hc', hreread⟩ := Option.map_eq_some_iff.1 hreread
      cases hc.symm.trans hc'
      intro x hx
      exact (hreached.good_readable 1 c hc).reread_eq_iff.1 (of_decide_eq_true hreread) x
        (Closure.inside_datum.2 hx)
    exact ⟨_, hreached, hhas, htext, c, hc, hbody, hback hbody⟩

end ReachedByTexts

end Session

end ScopeLisp

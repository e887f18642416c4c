import ScopeLisp.Token

/-!
# What scanning yields

Of any text the scanner makes well-formed tokens only: parentheses, whole quoted strings and bare items
(`wellFormed_of_scan?`). The invariant is that a pending item is the beginning of such a token
(`Mode.Sound`). The other way round, `Scanner.Writes` says which tokens a text is scanned as wherever it
stands after a gap; its rules follow the printer, and `Writes.scan?` reads off them what a printed text is
scanned as.
-/

namespace ScopeLisp

namespace Scanner

/-- Every backslash stands before the character that it escapes, and no quote stands by itself. -/
inductive Paired : List Char → Prop
  | nil : Paired []
  | plain {c : Char} {cs : List Char} (hslash : c ≠ '\\') (hquote : c ≠ '"') (h : Paired cs) :
      Paired (c :: cs)
  | escape {c : Char} {cs : List Char} (h : Paired cs) : Paired ('\\' :: c :: cs)

theorem Paired.append {as bs : List Char} (ha : Paired as) (hb : Paired bs) : Paired (as ++ bs) := by
  induction ha with
  | nil => exact hb
  | plain hslash hquote _ ih => exact .plain hslash hquote ih
  | escape _ ih => exact .escape ih

/-- Is no parenthesis, quote or semicolon, and does not separate. -/
def isBare (c : Char) : Bool := !(c = '(' || c = ')' || c = '"' || c = ';' || Text.isBlank c)

theorem stepBare_of_isBare {c : Char} (h : isBare c = true) (m : Mode) (pending : List Char) :
    stepBare m pending c = (.bare (c :: pending), []) := by
  simp only [isBare, Bool.not_eq_true', Bool.or_eq_false_iff, decide_eq_false_iff_not] at h
  obtain ⟨⟨⟨⟨hleft, hright⟩, hquote⟩, hcomment⟩, hblank⟩ := h
  simp [stepBare, hleft, hright, hquote, hcomment, hblank]

/-- A character that ends items does so, and then what it does where nothing is pending. -/
theorem stepBare_of_not_isBare {c : Char} (h : isBare c = false) (m : Mode) (pending : List Char) :
    stepBare m pending c = ((step .between c).1, m.flush ++ (step .between c).2) := by
  rw [step]
  unfold stepBare
  by_cases hleft : c = '('
  · simp [hleft, Mode.flush]
  by_cases hright : c = ')'
  · simp [hright, Mode.flush]
  by_cases hquote : c = '"'
  · simp [hquote, Mode.flush]
  by_cases hcomment : c = ';'
  · simp [hcomment, Mode.flush]
  · have hblank : Text.isBlank c = true := by
      simpa [isBare, hleft, hright, hquote, hcomment] using h
    simp [hleft, hright, hquote, hcomment, hblank, Mode.flush]

theorem step_of_isBlank {c : Char} (h : Text.isBlank c = true) :
    step .between c = (.between, []) := by
  have hne : ∀ c' : Char, Text.isBlank c' = false → c ≠ c' := by
    rintro c' hc' rfl
    rw [hc'] at h
    cases h
  simp [step, stepBare, h, hne '(' (by decide), hne ')' (by decide), hne '"' (by decide),
    hne ';' (by decide), Mode.flush]

end Scanner

open Scanner

/-- A parenthesis, a whole quoted string, or a bare item. -/
inductive Token.WellFormed : Token → Prop
  | leftParen : WellFormed .leftParen
  | rightParen : WellFormed .rightParen
  | quoted {body : List Char} (h : Paired body) :
      WellFormed (.item (String.ofList ('"' :: (body ++ ['"']))))
  | bare {cs : List Char} (hne : cs ≠ []) (h : ∀ c ∈ cs, isBare c = true) :
      WellFormed (.item (String.ofList cs))

namespace Scanner

/-! ## All tokens are well formed -/

/-- The pending item is the beginning of a well-formed token. -/
def Mode.Sound : Mode → Prop
  | .between | .comment => True
  | .bare pending => pending ≠ [] ∧ ∀ c ∈ pending, isBare c = true
  | .quoted pending | .escaped pending => ∃ body, Paired body ∧ pending.reverse = '"' :: body

theorem Mode.Sound.flush {m : Mode} (h : m.Sound) : ∀ t ∈ m.flush, t.WellFormed := by
  intro t ht
  cases m with
  | bare pending =>
    rw [Mode.flush, List.mem_singleton] at ht
    subst ht
    refine .bare (by simpa using h.1) fun c hc => h.2 c (List.mem_reverse.1 hc)
  | _ => cases ht

theorem stepBare_sound {m : Mode} {pending : List Char} (c : Char) (h : m.Sound)
    (hpending : ∀ c ∈ pending, isBare c = true) :
    (stepBare m pending c).1.Sound ∧ ∀ t ∈ (stepBare m pending c).2, t.WellFormed := by
  by_cases hc : isBare c = true
  · rw [stepBare_of_isBare hc]
    refine ⟨⟨List.cons_ne_nil _ _, fun c' hc' => ?_⟩, nofun⟩
    rcases List.mem_cons.1 hc' with rfl | hc'
    · exact hc
    · exact hpending c' hc'
  · have hparen : ∀ paren : Token, paren.WellFormed → ∀ t ∈ m.flush ++ [paren], t.WellFormed := by
      intro paren hparen t ht
      rcases List.mem_append.1 ht with ht | ht
      · exact h.flush t ht
      · rw [List.mem_singleton.1 ht]
        exact hparen
    unfold stepBare
    split
    · exact ⟨trivial, hparen _ .leftParen⟩
    split
    · exact ⟨trivial, hparen _ .rightParen⟩
    split
    · exact ⟨⟨[], .nil, rfl⟩, h.flush⟩
    split
    · exact ⟨trivial, h.flush⟩
    split
    · exact ⟨trivial, h.flush⟩
    · next hleft hright hquote hcomment hblank =>
      exact absurd (by simp [isBare, hleft, hright, hquote, hcomment, hblank]) hc

theorem step_sound {m : Mode} (c : Char) (h : m.Sound) :
    (step m c).1.Sound ∧ ∀ t ∈ (step m c).2, t.WellFormed := by
  cases m with
  | between => exact stepBare_sound c h nofun
  | bare pending => exact stepBare_sound c h h.2
  | quoted pending =>
    obtain ⟨body, hbody, hpending⟩ := h
    rw [step]
    split
    · exact ⟨⟨body, hbody, hpending⟩, nofun⟩
    · next hslash =>
      split
      · next hquote =>
        refine ⟨trivial, fun t ht => ?_⟩
        rw [List.mem_singleton] at ht
        subst ht hquote
        rw [List.reverse_cons, hpending, List.cons_append]
        exact .quoted hbody
      · next hquote =>
        refine ⟨⟨body ++ [c], hbody.append (.plain hslash hquote .nil), ?_⟩, nofun⟩
        rw [List.reverse_cons, hpending, List.cons_append]
  | escaped pending =>
    obtain ⟨body, hbody, hpending⟩ := h
    refine ⟨⟨body ++ ['\\', c], hbody.append (.escape .nil), ?_⟩, nofun⟩
    simp [hpending]
  | comment =>
    refine ⟨?_, nofun⟩
    rw [step]
    split <;> trivial

theorem scan_sound (cs : List Char) {p : Progress} (hmode : p.mode.Sound)
    (hdone : ∀ t ∈ p.done, t.WellFormed) :
    (scan p cs).mode.Sound ∧ ∀ t ∈ (scan p cs).done, t.WellFormed := by
  induction cs generalizing p with
  | nil => exact ⟨hmode, hdone⟩
  | cons c cs ih =>
    obtain ⟨hnext, htokens⟩ := step_sound c hmode
    refine ih (p := p.push c) hnext fun t ht => ?_
    rcases List.mem_append.1 ht with ht | ht
    · exact htokens t (List.mem_reverse.1 ht)
    · exact hdone t ht

end Scanner

theorem Token.wellFormed_of_scan? {code : String} {ts : List Token}
    (h : Token.scan? code = some ts) : ∀ t ∈ ts, t.WellFormed := by
  obtain ⟨hmode, hdone⟩ := scan_sound code.toList (p := {}) trivial nofun
  unfold Token.scan? Progress.finish at h
  intro t ht
  split at h
  · cases h
  · cases h
  · cases h
    rcases List.mem_append.1 ht with ht | ht
    · exact hdone t (List.mem_reverse.1 ht)
    · exact hmode.flush t ht

/-! ## The tokens of written text -/

namespace Scanner

def Progress.tokens (p : Progress) : List Token := p.done.reverse ++ p.mode.flush

/-- No more than a bare item is pending. -/
def Mode.Settled : Mode → Prop
  | .between | .bare _ => True
  | _ => False

/-- A character that ends items leaves nothing of what was pending. -/
theorem push_of_settled {p : Progress} (h : p.mode.Settled) {c : Char} (hc : isBare c = false) :
    p.push c = ⟨(step .between c).1, (step .between c).2.reverse ++ p.tokens.reverse⟩ := by
  have hstep : step p.mode c = ((step .between c).1, p.mode.flush ++ (step .between c).2) := by
    cases hm : p.mode with
    | between => rfl
    | bare pending => exact stepBare_of_not_isBare hc _ _
    | _ =>
      rw [hm] at h
      cases h
  simp [Progress.push, hstep, Progress.tokens]

theorem push_space {p : Progress} (h : p.mode.Settled) :
    p.push ' ' = ⟨.between, p.tokens.reverse⟩ :=
  push_of_settled h (by decide)

theorem push_rightParen {p : Progress} (h : p.mode.Settled) :
    p.push ')' = ⟨.between, .rightParen :: p.tokens.reverse⟩ :=
  push_of_settled h (by decide)

theorem finish_eq {p : Progress} (h : p.mode.Settled) : p.finish = some p.tokens := by
  obtain ⟨m, done⟩ := p
  cases m with
  | between => rfl
  | bare pending => rfl
  | _ => cases h

theorem scan_cons (p : Progress) (c : Char) (cs : List Char) :
    scan p (c :: cs) = scan (p.push c) cs := rfl

theorem scan_bare {cs : List Char} (h : ∀ c ∈ cs, isBare c = true) (pending : List Char)
    (done : List Token) :
    scan ⟨.bare pending, done⟩ cs = ⟨.bare (cs.reverse ++ pending), done⟩ := by
  induction cs generalizing pending with
  | nil => rfl
  | cons c cs ih =>
    have hstep : step (.bare pending) c = (.bare (c :: pending), []) :=
      stepBare_of_isBare (h c List.mem_cons_self) _ _
    have hpush : Progress.push ⟨.bare pending, done⟩ c = ⟨.bare (c :: pending), done⟩ := by
      simp [Progress.push, hstep]
    rw [scan_cons, hpush, List.reverse_cons, List.append_assoc]
    exact ih (fun c' hc' => h c' (List.mem_cons_of_mem _ hc')) (c :: pending)

theorem scan_quoted {body : List Char} (h : Paired body) (pending : List Char)
    (done : List Token) :
    scan ⟨.quoted pending, done⟩ body = ⟨.quoted (body.reverse ++ pending), done⟩ := by
  induction h generalizing pending with
  | nil => rfl
  | @plain c cs hslash hquote _ ih =>
    have hpush : Progress.push ⟨.quoted pending, done⟩ c = ⟨.quoted (c :: pending), done⟩ := by
      simp [Progress.push, step, hslash, hquote]
    rw [scan_cons, hpush, List.reverse_cons, List.append_assoc]
    exact ih (c :: pending)
  | @escape c cs _ ih =>
    rw [List.reverse_cons, List.reverse_cons, List.append_assoc, List.append_assoc]
    exact ih (c :: '\\' :: pending)

theorem scan_string {body : List Char} (h : Paired body) (done : List Token) :
    scan ⟨.between, done⟩ ('"' :: (body ++ ['"'])) =
      ⟨.between, .item (String.ofList ('"' :: (body ++ ['"']))) :: done⟩ := by
  have hopen : Progress.push ⟨.between, done⟩ '"' = ⟨.quoted ['"'], done⟩ := rfl
  rw [scan_cons, hopen, scan_append, scan_quoted h, scan_cons]
  simp [Progress.push, step, scan]

/-- Where it stands after a gap, the text `cs` is scanned as the tokens `ts`. The last of them may still
be pending at its end. -/
def Writes (cs : List Char) (ts : List Token) : Prop :=
  ∀ done, (scan ⟨.between, done⟩ cs).mode.Settled ∧
    (scan ⟨.between, done⟩ cs).tokens = done.reverse ++ ts

namespace Writes

variable {as bs cs : List Char} {ts us : List Token}

theorem nil : Writes [] [] := fun _ => ⟨trivial, rfl⟩

theorem bare (hne : cs ≠ []) (h : ∀ c ∈ cs, isBare c = true) :
    Writes cs [.item (String.ofList cs)] := by
  obtain ⟨c, cs, rfl⟩ := List.exists_cons_of_ne_nil hne
  intro done
  have hpush : Progress.push ⟨.between, done⟩ c = ⟨.bare [c], done⟩ := by
    have hstep : step .between c = (.bare [c], []) :=
      stepBare_of_isBare (h c List.mem_cons_self) _ _
    simp [Progress.push, hstep]
  have hscan : scan ⟨.between, done⟩ (c :: cs) = ⟨.bare (cs.reverse ++ [c]), done⟩ := by
    rw [scan_cons, hpush]
    exact scan_bare (fun c' hc' => h c' (List.mem_cons_of_mem _ hc')) [c] done
  rw [hscan]
  refine ⟨trivial, ?_⟩
  simp [Progress.tokens, Mode.flush]

theorem quoted {body : List Char} (h : Paired body) :
    Writes ('"' :: (body ++ ['"'])) [.item (String.ofList ('"' :: (body ++ ['"'])))] := by
  intro done
  rw [scan_string h]
  refine ⟨trivial, ?_⟩
  simp [Progress.tokens, Mode.flush]

theorem paren (h : Writes cs ts) :
    Writes ('(' :: (cs ++ [')'])) (.leftParen :: (ts ++ [.rightParen])) := by
  intro done
  obtain ⟨hsettled, htokens⟩ := h (.leftParen :: done)
  have hscan : scan ⟨.between, done⟩ ('(' :: (cs ++ [')'])) =
      ⟨.between, .rightParen :: (done.reverse ++ Token.leftParen :: ts).reverse⟩ := by
    have hopen : Progress.push ⟨.between, done⟩ '(' = ⟨.between, .leftParen :: done⟩ := rfl
    rw [scan_cons, hopen, scan_append, scan_cons, push_rightParen hsettled, htokens]
    simp [scan]
  rw [hscan]
  refine ⟨trivial, ?_⟩
  simp [Progress.tokens, Mode.flush]

theorem space (ha : Writes as ts) (hb : Writes bs us) :
    Writes (as ++ ' ' :: bs) (ts ++ us) := by
  intro done
  obtain ⟨hsettled, htokens⟩ := ha done
  obtain ⟨hsettled', htokens'⟩ := hb (done.reverse ++ ts).reverse
  have hscan : scan ⟨.between, done⟩ (as ++ ' ' :: bs) =
      scan ⟨.between, (done.reverse ++ ts).reverse⟩ bs := by
    rw [scan_append, scan_cons, push_space hsettled, htokens]
  rw [hscan]
  refine ⟨hsettled', ?_⟩
  rw [htokens', List.reverse_reverse, List.append_assoc]

theorem scan? (h : Writes cs ts) : Token.scan? (String.ofList cs) = some ts := by
  obtain ⟨hsettled, htokens⟩ := h []
  rw [Token.scan?, String.toList_ofList, finish_eq hsettled, htokens]
  rfl

end Writes

end Scanner

end ScopeLisp

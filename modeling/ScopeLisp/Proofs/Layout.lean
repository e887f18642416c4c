import ScopeLisp.Proofs.Joining

/-!
# Layouts

A layout of some tokens is a text in which they stand in order, with blanks and comments between
them as one likes, but with at least one of these between two bare items (`Layout`). Scanning gives
back the tokens of every layout, and what it gives for any text is the tokens of which the text is a
layout (`Token.scan?_eq_some_iff`). For the second of these the text is taken apart from its end: a
character in front of what a mode can go on with (`Remains`) makes what the mode before can go on
with (`Remains.step`).
-/

namespace ScopeLisp

namespace Token

/-- A token as it stands in a text. -/
def chars : Token → List Char
  | leftParen => ['(']
  | rightParen => [')']
  | item text => text.toList

/-- Whether the token is an item that could go on with more characters. -/
def isBare : Token → Bool
  | item text => text.toList.all Scanner.isBare
  | _ => false

end Token

open Scanner

/-- Blanks and whole comments. -/
inductive Gap : List Char → Prop
  | nil : Gap []
  | blank {c : Char} {cs : List Char} (hc : Text.isBlank c = true) (h : Gap cs) : Gap (c :: cs)
  | comment {line cs : List Char} (hline : '\n' ∉ line) (h : Gap cs) :
      Gap (';' :: (line ++ '\n' :: cs))

/-- What may stand after the last token: there the newline of the last comment can be missing. -/
inductive EndGap : List Char → Prop
  | gap {cs : List Char} (h : Gap cs) : EndGap cs
  | comment {cs line : List Char} (h : Gap cs) (hline : '\n' ∉ line) : EndGap (cs ++ ';' :: line)

/-- The text is the tokens in order with gaps around them. Where a bare item follows on a bare item,
the gap between them is not empty; `afterBare` says that the text follows on a bare item. -/
inductive Layout : (afterBare : Bool) → List Token → List Char → Prop
  | nil {afterBare : Bool} {cs : List Char} (h : EndGap cs) : Layout afterBare [] cs
  | cons {afterBare : Bool} {gap cs : List Char} {t : Token} {ts : List Token} (hgap : Gap gap)
      (hapart : afterBare = true → t.isBare = true → gap ≠ []) (h : Layout t.isBare ts cs) :
      Layout afterBare (t :: ts) (gap ++ (t.chars ++ cs))

/-! ## Every layout is scanned as its tokens -/

namespace Scanner

/-- Before a character that ends items, the pending item may as well have ended. -/
theorem scan_settled {p : Progress} (hp : p.mode.Settled) {c : Char} (hc : isBare c = false)
    (cs : List Char) : scan p (c :: cs) = scan ⟨.between, p.tokens.reverse⟩ (c :: cs) := by
  rw [scan_cons, scan_cons, push_of_settled hp hc, push_of_settled (p := ⟨.between, _⟩) trivial hc]
  simp [Progress.tokens, Mode.flush]

theorem scan_comment {line : List Char} (hline : '\n' ∉ line) (done : List Token) :
    scan ⟨.comment, done⟩ line = ⟨.comment, done⟩ := by
  induction line with
  | nil => rfl
  | cons c line ih =>
    rw [List.mem_cons, not_or] at hline
    have hpush : Progress.push ⟨.comment, done⟩ c = ⟨.comment, done⟩ := by
      simp [Progress.push, step, Ne.symm hline.1]
    rw [scan_cons, hpush, ih hline.2]

end Scanner

theorem isBare_eq_false_of_isBlank {c : Char} (hc : Text.isBlank c = true) : isBare c = false := by
  simp [isBare, hc]

namespace Gap

variable {gap gap' : List Char}

theorem append (h : Gap gap) (h' : Gap gap') : Gap (gap ++ gap') := by
  induction h with
  | nil => exact h'
  | blank hc _ ih => exact .blank hc ih
  | comment hline _ ih =>
    rw [List.cons_append, List.append_assoc, List.cons_append]
    exact .comment hline ih

theorem exists_cons (h : Gap gap) (hne : gap ≠ []) : ∃ c cs, gap = c :: cs ∧ isBare c = false := by
  cases h with
  | nil => exact absurd rfl hne
  | blank hc _ => exact ⟨_, _, rfl, isBare_eq_false_of_isBlank hc⟩
  | comment => exact ⟨_, _, rfl, by decide⟩

theorem scan_eq (h : Gap gap) (done : List Token) :
    scan ⟨.between, done⟩ gap = ⟨.between, done⟩ := by
  induction h with
  | nil => rfl
  | @blank c cs hc _ ih =>
    have hpush : Progress.push ⟨.between, done⟩ c = ⟨.between, done⟩ := by
      have hstep : step .between c = (.between, []) := step_of_isBlank hc
      simp [Progress.push, hstep]
    rw [scan_cons, hpush, ih]
  | @comment line cs hline _ ih =>
    have hopen : Progress.push ⟨.between, done⟩ ';' = ⟨.comment, done⟩ := rfl
    have hclose : Progress.push ⟨.comment, done⟩ '\n' = ⟨.between, done⟩ := rfl
    rw [scan_cons, hopen, scan_append, scan_comment hline, scan_cons, hclose, ih]

end Gap

theorem EndGap.exists_cons {cs : List Char} (h : EndGap cs) (hne : cs ≠ []) :
    ∃ c rest, cs = c :: rest ∧ isBare c = false := by
  cases h with
  | gap h => exact h.exists_cons hne
  | @comment cs line h hline =>
    by_cases hnil : cs = []
    · subst hnil
      exact ⟨_, _, rfl, by decide⟩
    · obtain ⟨c, rest, rfl, hc⟩ := h.exists_cons hnil
      exact ⟨c, _, rfl, hc⟩

theorem EndGap.finish_eq {cs : List Char} (h : EndGap cs) (done : List Token) :
    (scan ⟨.between, done⟩ cs).finish = some done.reverse := by
  cases h with
  | gap h =>
    rw [h.scan_eq]
    simp [Progress.finish, Mode.flush]
  | comment h hline =>
    have hopen : Progress.push ⟨.between, done⟩ ';' = ⟨.comment, done⟩ := rfl
    rw [scan_append, h.scan_eq, scan_cons, hopen, scan_comment hline]
    simp [Progress.finish, Mode.flush]

namespace Token

variable {t : Token}

theorem WellFormed.writes (h : t.WellFormed) : Writes t.chars [t] := by
  cases h with
  | leftParen => exact fun done => ⟨trivial, by simp [chars, scan, Progress.push, step, stepBare,
      Progress.tokens, Mode.flush]⟩
  | rightParen => exact fun done => ⟨trivial, by simp [chars, scan, Progress.push, step, stepBare,
      Progress.tokens, Mode.flush]⟩
  | quoted h =>
    rw [chars, String.toList_ofList]
    exact .quoted h
  | bare hne h =>
    rw [chars, String.toList_ofList]
    exact .bare hne h

/-- A token that is no bare item begins with a character that ends items, and nothing is pending
after it. -/
theorem WellFormed.closed (h : t.WellFormed) (ht : t.isBare = false) :
    (∃ c cs, t.chars = c :: cs ∧ Scanner.isBare c = false) ∧
      ∀ done, (scan ⟨.between, done⟩ t.chars).mode = .between := by
  cases h with
  | leftParen => exact ⟨⟨_, _, rfl, by decide⟩, fun _ => rfl⟩
  | rightParen => exact ⟨⟨_, _, rfl, by decide⟩, fun _ => rfl⟩
  | quoted h =>
    rw [chars, String.toList_ofList]
    exact ⟨⟨_, _, rfl, by decide⟩, fun done => by rw [scan_string h]⟩
  | bare hne h =>
    rw [isBare, String.toList_ofList, List.all_eq_false] at ht
    obtain ⟨c, hc, hbare⟩ := ht
    exact absurd (h c hc) hbare

end Token

/-- Before a token the gap settles what is pending; without a gap the token does, unless both are
bare. -/
theorem Gap.scan_before {gap : List Char} {t : Token} (hgap : Gap gap) (ht : t.WellFormed)
    {p : Progress} (hp : p.mode.Settled)
    (h : gap ≠ [] ∨ p.mode = .between ∨ t.isBare = false) (cs : List Char) :
    scan p (gap ++ (t.chars ++ cs)) = scan ⟨.between, p.tokens.reverse⟩ (t.chars ++ cs) := by
  by_cases hne : gap = []
  · subst hne
    rcases h with h | h | h
    · exact absurd rfl h
    · obtain ⟨m, done⟩ := p
      cases h
      simp [Progress.tokens, Mode.flush]
    · obtain ⟨⟨c, rest, hchars, hc⟩, -⟩ := ht.closed h
      rw [hchars]
      exact scan_settled hp hc _
  · obtain ⟨c, rest, hrest, hc⟩ := hgap.exists_cons hne
    have hscan : scan p gap = scan ⟨.between, p.tokens.reverse⟩ gap := by
      rw [hrest]
      exact scan_settled hp hc rest
    rw [scan_append, hscan, hgap.scan_eq]

theorem Layout.finish_eq {afterBare : Bool} {ts : List Token} {cs : List Char}
    (h : Layout afterBare ts cs) (hts : ∀ t ∈ ts, t.WellFormed) {p : Progress}
    (hp : p.mode.Settled) (hmode : afterBare = false → p.mode = .between) :
    (scan p cs).finish = some (p.tokens ++ ts) := by
  induction h generalizing p with
  | @nil afterBare cs h =>
    by_cases hne : cs = []
    · subst hne
      rw [List.append_nil]
      exact Scanner.finish_eq hp
    · obtain ⟨c, rest, hrest, hc⟩ := h.exists_cons hne
      have hscan : scan p cs = scan ⟨.between, p.tokens.reverse⟩ cs := by
        rw [hrest]
        exact scan_settled hp hc rest
      rw [hscan, h.finish_eq, List.reverse_reverse, List.append_nil]
  | @cons afterBare gap cs t ts hgap hapart _ ih =>
    have ht := hts t List.mem_cons_self
    have hbefore : gap ≠ [] ∨ p.mode = .between ∨ t.isBare = false := by
      cases hb : t.isBare with
      | false => exact .inr (.inr rfl)
      | true =>
        cases afterBare with
        | false => exact .inr (.inl (hmode rfl))
        | true => exact .inl (hapart rfl hb)
    obtain ⟨hsettled, htokens⟩ := ht.writes p.tokens.reverse
    have hrest := ih (fun u hu => hts u (List.mem_cons_of_mem _ hu)) hsettled
      fun hb => (ht.closed hb).2 p.tokens.reverse
    rw [hgap.scan_before ht hp hbefore, scan_append, hrest, htokens, List.reverse_reverse,
      List.append_assoc, List.singleton_append]

/-! ## Every text that is scanned is a layout -/

/-- A longer gap in front of a layout sets it apart from whatever is before. -/
theorem Layout.gap {afterBare afterBare' : Bool} {gap cs : List Char} {ts : List Token}
    (hgap : Gap gap) (hne : gap ≠ []) (h : Layout afterBare ts cs) :
    Layout afterBare' ts (gap ++ cs) := by
  cases h with
  | nil h =>
    cases h with
    | gap h => exact .nil (.gap (hgap.append h))
    | comment h hline =>
      rw [← List.append_assoc]
      exact .nil (.comment (hgap.append h) hline)
  | cons hgap' _ h =>
    rw [← List.append_assoc]
    exact .cons (hgap.append hgap') (fun _ _ => List.append_ne_nil_of_left_ne_nil hne _) h

/-- A token that is no bare item needs no gap in front of it. -/
theorem Layout.cons_closed {afterBare : Bool} {t : Token} {ts : List Token} {cs : List Char}
    (ht : t.isBare = false) (h : Layout false ts cs) : Layout afterBare (t :: ts) (t.chars ++ cs) :=
  .cons .nil (fun _ hbare => absurd (ht.symm.trans hbare) Bool.false_ne_true) (ht ▸ h)

theorem Layout.cons_bare {t : Token} {ts : List Token} {cs : List Char} (ht : t.isBare = true)
    (h : Layout true ts cs) : Layout false (t :: ts) (t.chars ++ cs) :=
  .cons .nil (fun hafter => absurd hafter Bool.false_ne_true) (ht ▸ h)

/-- The texts that a mode can go on with to the end, and the tokens that come of it, the pending one
included. -/
inductive Scanner.Remains : Mode → List Token → List Char → Prop
  | between {ts : List Token} {cs : List Char} (h : Layout false ts cs) : Remains .between ts cs
  | bare {pending more cs : List Char} {ts : List Token} (hmore : ∀ c ∈ more, isBare c = true)
      (h : Layout true ts cs) :
      Remains (.bare pending) (.item (String.ofList (pending.reverse ++ more)) :: ts) (more ++ cs)
  | quoted {pending body cs : List Char} {ts : List Token} (hbody : Paired body)
      (h : Layout false ts cs) :
      Remains (.quoted pending)
        (.item (String.ofList (pending.reverse ++ (body ++ ['"']))) :: ts) (body ++ '"' :: cs)
  | escaped {pending cs : List Char} {c : Char} {ts : List Token}
      (h : Remains (.quoted (c :: '\\' :: pending)) ts cs) : Remains (.escaped pending) ts (c :: cs)
  | comment {line cs : List Char} {ts : List Token} (hline : '\n' ∉ line)
      (h : Layout false ts cs) : Remains .comment ts (line ++ '\n' :: cs)
  | lastComment {line : List Char} (hline : '\n' ∉ line) : Remains .comment [] line

namespace Scanner.Remains

variable {c : Char} {cs pending : List Char} {ts : List Token}

/-- A character that ends items sets what comes of it apart from whatever is before. -/
theorem layout_cons (hc : isBare c = false) (h : Remains (step .between c).1 ts cs)
    (afterBare : Bool) : Layout afterBare ((step .between c).2 ++ ts) (c :: cs) := by
  by_cases hleft : c = '('
  · subst hleft
    cases h with
    | between h => exact h.cons_closed (t := .leftParen) rfl
  by_cases hright : c = ')'
  · subst hright
    cases h with
    | between h => exact h.cons_closed (t := .rightParen) rfl
  by_cases hquote : c = '"'
  · subst hquote
    cases h with
    | @quoted _ body cs ts hbody h =>
      have hnot : Token.isBare (.item (String.ofList ('"' :: (body ++ ['"'])))) = false := by
        simp [Token.isBare, isBare]
      have hitem : Layout afterBare (.item (String.ofList ('"' :: (body ++ ['"']))) :: ts) _ :=
        h.cons_closed hnot
      simpa [Token.chars, step, stepBare, Mode.flush] using hitem
  by_cases hcomment : c = ';'
  · subst hcomment
    cases h with
    | @comment line _ _ hline h =>
      have hgap : Gap (';' :: (line ++ ['\n'])) := .comment hline .nil
      have hafter : Layout afterBare ts _ := h.gap hgap (List.cons_ne_nil _ _)
      simpa [step, stepBare, Mode.flush] using hafter
    | lastComment hline => exact .nil (.comment .nil hline)
  · have hblank : Text.isBlank c = true := by
      simpa [isBare, hleft, hright, hquote, hcomment] using hc
    rw [step_of_isBlank hblank] at h ⊢
    cases h with
    | between h => exact Layout.gap (.blank hblank .nil) (by simp) h

theorem step_bare (hc : isBare c = true) (h : Remains (.bare (c :: pending)) ts cs) :
    Remains (.bare pending) ts (c :: cs) := by
  cases h with
  | @bare _ more cs ts hmore h =>
    rw [List.reverse_cons, List.append_assoc]
    have hall : ∀ c' ∈ c :: more, isBare c' = true := List.forall_mem_cons.2 ⟨hc, hmore⟩
    exact .bare hall h

theorem step_quoted (h : Remains (step (.quoted pending) c).1 ts cs) :
    Remains (.quoted pending) ((step (.quoted pending) c).2 ++ ts) (c :: cs) := by
  by_cases hslash : c = '\\'
  · subst hslash
    cases h with
    | @escaped _ _ e _ h =>
      cases h with
      | @quoted _ body cs ts hbody h =>
        have hlonger : Paired ('\\' :: e :: body) := .escape hbody
        have hitem : Remains (.quoted pending) _ _ := .quoted hlonger h
        simpa [step] using hitem
  · by_cases hquote : c = '"'
    · subst hquote
      cases h with
      | between h =>
        have hitem : Remains (.quoted pending) _ _ := .quoted .nil h
        simpa [step] using hitem
    · have hstep : step (.quoted pending) c = (.quoted (c :: pending), []) := by
        simp [step, hslash, hquote]
      rw [hstep] at h ⊢
      cases h with
      | @quoted _ body cs ts hbody h =>
        have hitem : Remains (.quoted pending) _ _ := .quoted (.plain hslash hquote hbody) h
        simpa using hitem

theorem step_comment (h : Remains (step .comment c).1 ts cs) :
    Remains .comment ((step .comment c).2 ++ ts) (c :: cs) := by
  by_cases hnewline : c = '\n'
  · subst hnewline
    cases h with
    | between h =>
      have hempty : '\n' ∉ ([] : List Char) := List.not_mem_nil
      exact .comment hempty h
  · have hstep : step .comment c = (.comment, []) := by simp [step, hnewline]
    have hmem : ∀ line : List Char, '\n' ∉ line → '\n' ∉ c :: line := fun line hline hmem =>
      (List.mem_cons.1 hmem).elim (fun heq => hnewline heq.symm) hline
    rw [hstep] at h ⊢
    cases h with
    | @comment line _ _ hline h => exact .comment (hmem line hline) h
    | lastComment hline => exact .lastComment (hmem cs hline)

/-- What can be gone on with after a character, with that character in front. -/
theorem step (m : Mode) (h : Remains (Scanner.step m c).1 ts cs) :
    Remains m ((Scanner.step m c).2 ++ ts) (c :: cs) := by
  cases m with
  | between =>
    cases hc : isBare c with
    | false => exact .between (layout_cons hc h false)
    | true =>
      have hstep : Scanner.step .between c = (.bare [c], []) := stepBare_of_isBare hc _ _
      rw [hstep] at h ⊢
      cases h with
      | @bare _ more cs ts hmore h =>
        have hall : ∀ c' ∈ c :: more, isBare c' = true := List.forall_mem_cons.2 ⟨hc, hmore⟩
        have hbare : Token.isBare (.item (String.ofList (c :: more))) = true := by
          simpa [Token.isBare] using hall
        have hitem : Layout false (.item (String.ofList (c :: more)) :: ts) _ :=
          h.cons_bare hbare
        simpa [Token.chars] using Remains.between hitem
  | bare pending =>
    cases hc : isBare c with
    | false =>
      have hstep := stepBare_of_not_isBare hc (.bare pending) pending
      rw [Scanner.step, hstep] at h ⊢
      have hitem : Remains (.bare pending) _ _ :=
        .bare (List.forall_mem_nil _) (layout_cons hc h true)
      simpa [Mode.flush] using hitem
    | true =>
      have hstep : Scanner.step (.bare pending) c = (.bare (c :: pending), []) :=
        stepBare_of_isBare hc _ _
      rw [hstep] at h ⊢
      exact step_bare hc h
  | quoted pending => exact step_quoted h
  | escaped pending => exact .escaped h
  | comment => exact step_comment h

end Scanner.Remains

theorem Scanner.remains_of_finish {m : Mode} {ts : List Token} {cs : List Char}
    (h : (scan ⟨m, []⟩ cs).finish = some ts) : Remains m ts cs := by
  induction cs generalizing m ts with
  | nil =>
    cases m with
    | between => cases h; exact .between (.nil (.gap .nil))
    | bare pending =>
      cases h
      have hitem : Remains (.bare pending) _ _ := .bare (List.forall_mem_nil _) (.nil (.gap .nil))
      simpa [scan, Mode.flush] using hitem
    | quoted | escaped => cases h
    | comment => cases h; exact .lastComment List.not_mem_nil
  | cons c cs ih =>
    have hpush : Progress.push ⟨m, []⟩ c = ⟨(step m c).1, (step m c).2.reverse⟩ := by
      simp [Progress.push]
    rw [scan_cons, hpush, scan_eq, finish_cons_done, List.reverse_reverse,
      Option.map_eq_some_iff] at h
    obtain ⟨us, hus, rfl⟩ := h
    exact (ih hus).step m

theorem Token.scan?_eq_some_iff {code : String} {ts : List Token} :
    Token.scan? code = some ts ↔ (∀ t ∈ ts, t.WellFormed) ∧ Layout false ts code.toList := by
  constructor
  · intro h
    have hremains : Remains .between ts code.toList := remains_of_finish h
    cases hremains with
    | between hlayout => exact ⟨Token.wellFormed_of_scan? h, hlayout⟩
  · rintro ⟨hts, hlayout⟩
    exact hlayout.finish_eq hts (p := {}) trivial fun _ => rfl

/-- **Tokens are independent of layout.** A text is scanned as the tokens `ts` exactly if these are
well formed and the text is a layout of them. It is not scanned exactly if it is no layout of
well-formed tokens, and it is then, and only then, refused for a string that does not end. -/
theorem Token.layout_of_scan (code : String) :
    (∀ ts, Token.scan? code = some ts ↔
      (∀ t ∈ ts, t.WellFormed) ∧ Layout false ts code.toList) ∧
    (Token.scan? code = none ↔
      ¬ ∃ ts, (∀ t ∈ ts, t.WellFormed) ∧ Layout false ts code.toList) ∧
    (Datum.readText code = .error .unterminatedString ↔ Token.scan? code = none) := by
  refine ⟨fun ts => Token.scan?_eq_some_iff, ?_, ?_⟩
  · rw [Option.eq_none_iff_forall_ne_some, not_exists]
    exact forall_congr' fun ts => not_congr Token.scan?_eq_some_iff
  · constructor
    · intro h
      have hverdict := Datum.verdict_readText code
      rw [h] at hverdict
      cases hverdict with
      | unterminated h => exact h
      | fault _ _ hfault =>
        obtain ⟨text, htext⟩ := hfault.eq_erroneousToken
        cases htext
    · intro h
      rw [Datum.readText, h]

end ScopeLisp

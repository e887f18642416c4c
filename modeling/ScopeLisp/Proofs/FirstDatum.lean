import ScopeLisp.Proofs.Acceptance

/-!
# Reading one datum

The reader of one datum stops at the token with which the datum is complete, at a token that shows
that there is none, or at the end. `Reader.Reads` says without the stack of the reader where that is:
it tells five courses apart by the lists that are open after each token, and says for each of them what
is yielded and which tokens are left. Every stream of tokens takes exactly one course, with exactly one
result, and that is what the reader does (`Datum.ofTokens_course`). So the reader looks at no token after
the one where it stops, and the next reading goes on right there.
-/

namespace ScopeLisp

namespace Token

/-- Some list is open after each of the tokens, where `depth` of them are open before the first. -/
def StaysOpen (depth : Nat) (ts : List Token) : Prop :=
  ∀ q, q <+: ts → q ≠ [] → openLists depth q ≠ 0

/-- No token is an item that is no atom. -/
def AllRead (ts : List Token) : Prop := ∀ t ∈ ts, t.lexeme? ≠ none

variable {depth : Nat} {t : Token} {ts : List Token}

theorem staysOpen_nil : StaysOpen depth [] := by
  intro q hq hne
  exact absurd (List.prefix_nil.1 hq) hne

theorem staysOpen_cons :
    StaysOpen depth (t :: ts) ↔ openAfter depth t ≠ 0 ∧ StaysOpen (openAfter depth t) ts := by
  constructor
  · intro h
    refine ⟨h [t] (by simp) (by simp), ?_⟩
    intro q hq _
    exact h (t :: q) (List.cons_prefix_cons.2 ⟨rfl, hq⟩) (by simp)
  · rintro ⟨hhead, h⟩ q hq hne
    cases q with
    | nil => exact absurd rfl hne
    | cons t' q =>
      obtain ⟨rfl, hrest⟩ := List.cons_prefix_cons.1 hq
      rw [openLists_cons]
      by_cases hnil : q = []
      · subst hnil
        exact hhead
      · exact h q hrest hnil

theorem allRead_cons : AllRead (t :: ts) ↔ t.lexeme? ≠ none ∧ AllRead ts := List.forall_mem_cons

theorem lexeme?_item_eq_none {text : String} :
    (Token.item text).lexeme? = none ↔ ∀ d, Datum.ofItem text ≠ .ok d := by
  cases h : Datum.ofItem text <;> simp [lexeme?, h, Except.toOption]

end Token

namespace Reader

open Token Datum

/-- The ways in which the reading of one datum can go. -/
inductive Course where
  | datum | nothing | stray | badItem | unclosed

/-- How one datum is read from `ts`, where `depth` lists are open and `before` has been read of it: the
course that this takes, with the result and the tokens that are left. -/
inductive Reads (depth : Nat) (before : List Lexeme) (ts : List Token) :
    Course → Except ReadError Datum × List Token → Prop
  /-- With the token `t`, and not before, no list is open any more. What has been read is the datum. -/
  | datum {p rest : List Token} {t : Token} {d : Datum} (hts : ts = p ++ t :: rest)
      (hopen : StaysOpen depth p) (hclosed : openLists depth (p ++ [t]) = 0)
      (hd : before.map some ++ (p ++ [t]).map lexeme? = d.lexemes.map some) :
      Reads depth before ts .datum (.ok d, rest)
  | nothing (hdepth : depth = 0) (hts : ts = []) :
      Reads depth before ts .nothing (.error .empty, [])
  /-- A parenthesis comes first that closes nothing. -/
  | stray {rest : List Token} (hdepth : depth = 0) (hts : ts = .rightParen :: rest) :
      Reads depth before ts .stray (.error (.erroneousToken ")"), rest)
  /-- An item comes that is no atom, the first such item, while a list is open or at once. -/
  | badItem {p rest : List Token} {text : String} (hts : ts = p ++ .item text :: rest)
      (hopen : StaysOpen depth p) (hread : AllRead p) (hbad : ∀ d, ofItem text ≠ .ok d) :
      Reads depth before ts .badItem (.error (.erroneousToken text), rest)
  /-- The tokens end while a list is open. -/
  | unclosed (hne : depth ≠ 0 ∨ ts ≠ []) (hopen : StaysOpen depth ts) (hread : AllRead ts) :
      Reads depth before ts .unclosed (.error .mismatchedParens, [])

/-- The course of a reading that ends with an error at the token. -/
def courseOf : Token → Course
  | .item _ => .badItem
  | _ => .stray

variable {depth : Nat} {before after : List Lexeme} {lists : List (List Datum)} {t : Token}
  {ts : List Token} {c : Course} {r : Except ReadError Datum × List Token}

/-! ## The first token -/

theorem ne_none_of_mem {α : Type} {xs ys : List (Option α)} {zs : List α} {x : Option α}
    (h : xs ++ ys = zs.map some) (hx : x ∈ ys) : x ≠ none := by
  rintro rfl
  have hmem : none ∈ zs.map some := h ▸ List.mem_append_right xs hx
  simp at hmem

theorem not_fault_of_complete {d : Datum}
    (hd : (written lists).map some ++ [t.lexeme?] = d.lexemes.map some) (e : ReadError) :
    ¬ Fault lists.length (t :: ts) 0 e := by
  intro hfault
  cases hfault with
  | stray ht hopen =>
    cases ht
    have hnil : lists = [] := List.length_eq_zero_iff.1 hopen
    subst hnil
    cases d <;> simp [written, lexeme?, lexemes] at hd
  | item ht hitem =>
    cases ht
    exact ne_none_of_mem hd (List.mem_singleton_self _) (lexeme?_item_eq_none.2 hitem)

theorem not_fault_of_open (hopen : openAfter depth t ≠ 0) (hread : t.lexeme? ≠ none)
    (e : ReadError) : ¬ Fault depth (t :: ts) 0 e := by
  intro hfault
  cases hfault with
  | stray ht hdepth =>
    cases ht
    have hzero : depth = 0 := hdepth
    simp [openAfter, hzero] at hopen
  | item ht hitem =>
    cases ht
    exact hread (lexeme?_item_eq_none.2 hitem)

theorem Reads.of_fault {e : ReadError} (h : Fault depth (t :: ts) 0 e) :
    Reads depth before (t :: ts) (courseOf t) (.error e, ts) := by
  cases h with
  | stray ht hopen =>
    cases ht
    exact .stray hopen rfl
  | item ht hitem =>
    cases ht
    exact .badItem (p := []) rfl staysOpen_nil (by simp [AllRead]) hitem

theorem Reads.of_complete {d : Datum} (hclosed : openAfter depth t = 0)
    (hd : before.map some ++ [t.lexeme?] = d.lexemes.map some) :
    Reads depth before (t :: ts) .datum (.ok d, ts) :=
  .datum (p := []) rfl staysOpen_nil hclosed hd

/-- A token after which some list is open does not settle the course. -/
theorem Reads.cons (hopen : openAfter depth t ≠ 0)
    (hwritten : before.map some ++ [t.lexeme?] = after.map some)
    (h : Reads (openAfter depth t) after ts c r) : Reads depth before (t :: ts) c r := by
  have hread : t.lexeme? ≠ none := ne_none_of_mem hwritten (by simp)
  cases h with
  | @datum p rest t' d hts hopen' hclosed hd =>
    refine .datum (p := t :: p) (by rw [hts, List.cons_append])
      (staysOpen_cons.2 ⟨hopen, hopen'⟩) hclosed ?_
    rw [← hd, ← hwritten, List.append_assoc]
    rfl
  | nothing hdepth _ => exact absurd hdepth hopen
  | stray hdepth _ => exact absurd hdepth hopen
  | @badItem p rest text hts hopen' hread' hbad =>
    exact .badItem (p := t :: p) (by rw [hts, List.cons_append]) (staysOpen_cons.2 ⟨hopen, hopen'⟩)
      (allRead_cons.2 ⟨hread, hread'⟩) hbad
  | unclosed _ hopen' hread' =>
    exact .unclosed (.inr (by simp)) (staysOpen_cons.2 ⟨hopen, hopen'⟩)
      (allRead_cons.2 ⟨hread, hread'⟩)

/-- The first token completes the datum, or cannot be read, or leaves some list open. -/
theorem Reads.of_cons (h : Reads depth before (t :: ts) c r) :
    (∃ d, openAfter depth t = 0 ∧ before.map some ++ [t.lexeme?] = d.lexemes.map some ∧
      c = .datum ∧ r = (.ok d, ts)) ∨
    (∃ e, Fault depth (t :: ts) 0 e ∧ c = courseOf t ∧ r = (.error e, ts)) ∨
    (openAfter depth t ≠ 0 ∧ t.lexeme? ≠ none ∧
      ∀ after, before.map some ++ [t.lexeme?] = after.map some →
        Reads (openAfter depth t) after ts c r) := by
  cases h with
  | @datum p rest t' d hts hopen hclosed hd =>
    cases p with
    | nil =>
      cases hts
      exact .inl ⟨d, hclosed, hd, rfl, rfl⟩
    | cons t₀ p =>
      cases hts
      obtain ⟨hhead, hopen⟩ := staysOpen_cons.1 hopen
      have hread : t.lexeme? ≠ none := ne_none_of_mem hd (by simp)
      refine .inr (.inr ⟨hhead, hread, fun after hafter => .datum rfl hopen hclosed ?_⟩)
      rw [← hafter, ← hd, List.append_assoc]
      rfl
  | nothing _ hts => cases hts
  | stray hdepth hts =>
    cases hts
    exact .inr (.inl ⟨_, .stray rfl hdepth, rfl, rfl⟩)
  | @badItem p rest text hts hopen hread hbad =>
    cases p with
    | nil =>
      cases hts
      exact .inr (.inl ⟨_, .item rfl hbad, rfl, rfl⟩)
    | cons t₀ p =>
      cases hts
      obtain ⟨hhead, hopen⟩ := staysOpen_cons.1 hopen
      obtain ⟨hread, hrest⟩ := allRead_cons.1 hread
      exact .inr (.inr ⟨hhead, hread, fun after _ => .badItem rfl hopen hrest hbad⟩)
  | unclosed _ hopen hread =>
    obtain ⟨hhead, hopen⟩ := staysOpen_cons.1 hopen
    obtain ⟨hread, hrest⟩ := allRead_cons.1 hread
    exact .inr (.inr ⟨hhead, hread, fun after _ => .unclosed (.inl hhead) hopen hrest⟩)

/-! ## The end of the tokens -/

theorem reads_nil_iff : Reads depth before [] c r ↔
    depth = 0 ∧ c = .nothing ∧ r = (.error .empty, []) ∨
      depth ≠ 0 ∧ c = .unclosed ∧ r = (.error .mismatchedParens, []) := by
  constructor
  · intro h
    cases h with
    | datum hts => simp at hts
    | nothing hdepth => exact .inl ⟨hdepth, rfl, rfl⟩
    | stray _ hts => cases hts
    | badItem hts => simp at hts
    | unclosed hne => exact .inr ⟨hne.resolve_right (by simp), rfl, rfl⟩
  · rintro (⟨hdepth, rfl, rfl⟩ | ⟨hdepth, rfl, rfl⟩)
    · exact .nothing hdepth rfl
    · exact .unclosed (.inl hdepth) staysOpen_nil (by simp [AllRead])

/-! ## The reader -/

theorem ne_nil_of_step {lists' : List (List Datum)} (h : step lists t = .ok (.within lists')) :
    lists' ≠ [] := by
  have hput : ∀ (d : Datum) (lists : List (List Datum)), put d lists = .within lists' →
      lists' ≠ [] := by
    intro d lists hd
    cases lists with
    | nil => cases hd
    | cons items outer =>
      cases hd
      simp
  cases t with
  | leftParen =>
    cases h
    simp
  | rightParen =>
    cases lists with
    | nil => cases h
    | cons items outer => exact hput _ _ (Except.ok.inj h)
  | item text =>
    cases hd : ofItem text with
    | error e =>
      rw [step, hd] at h
      cases h
    | ok d =>
      rw [step, hd] at h
      exact hput _ _ (Except.ok.inj h)

theorem lexemes_injective {d d' : Datum} (h : d.lexemes = d'.lexemes) : d = d' := by
  have happend : d.lexemes ++ [] = d'.lexemes ++ [] := by rw [h]
  exact (lexemes_append_inj happend).1

/-- The reader takes the one course that there is. This is an induction on the tokens, with the open
lists of the reader in the place of what has been read. -/
theorem exists_course (lists : List (List Datum)) (ts : List Token) : ∃ course, ∀ c r,
    Reads lists.length (written lists) ts c r ↔ c = course ∧ r = readOne lists ts := by
  induction ts generalizing lists with
  | nil =>
    by_cases hnil : lists = []
    · refine ⟨.nothing, fun c r => ?_⟩
      simp [reads_nil_iff, readOne, hnil]
    · refine ⟨.unclosed, fun c r => ?_⟩
      simp [reads_nil_iff, readOne, hnil]
  | cons t ts ih =>
    rw [readOne]
    cases hp : step lists t with
    | error e =>
      have hfault : Fault lists.length (t :: ts) 0 e := fault_of_step hp
      refine ⟨courseOf t, fun c r => ⟨fun h => ?_, ?_⟩⟩
      · rcases h.of_cons with ⟨d, -, hd, -⟩ | ⟨e', hfault', hc, hr⟩ | ⟨hopen, hread, -⟩
        · exact absurd hfault (not_fault_of_complete hd e)
        · rw [hfault.unique hfault']
          exact ⟨hc, hr⟩
        · exact absurd hfault (not_fault_of_open hopen hread e)
      · rintro ⟨rfl, rfl⟩
        exact .of_fault hfault
    | ok p =>
      have hsound : ∀ e, ¬ Fault lists.length (t :: ts) 0 e := not_fault_of_step hp
      have hdepth : p.depth = openAfter lists.length t := depth_of_step hp
      have hwritten : (written lists).map some ++ [t.lexeme?] = p.written.map some :=
        written_of_step hp
      cases p with
      | complete d =>
        refine ⟨.datum, fun c r => ⟨fun h => ?_, ?_⟩⟩
        · rcases h.of_cons with ⟨d', -, hd, hc, hr⟩ | ⟨e, hfault, -⟩ | ⟨hopen, -⟩
          · have hmap : d'.lexemes.map some = d.lexemes.map some := hd.symm.trans hwritten
            have heq : d' = d :=
              lexemes_injective ((List.map_inj_right fun _ _ => Option.some.inj).1 hmap)
            exact ⟨hc, heq ▸ hr⟩
          · exact absurd hfault (hsound e)
          · exact absurd hdepth.symm hopen
        · rintro ⟨rfl, rfl⟩
          exact .of_complete hdepth.symm hwritten
      | within lists' =>
        have hopen : openAfter lists.length t ≠ 0 := by
          rw [← hdepth]
          exact fun h => ne_nil_of_step hp (List.length_eq_zero_iff.1 h)
        obtain ⟨course, hcourse⟩ := ih lists'
        refine ⟨course, fun c r => ?_⟩
        rw [← hcourse]
        have hlength : lists'.length = openAfter lists.length t := hdepth
        rw [hlength]
        constructor
        · intro h
          rcases h.of_cons with ⟨d, hclosed, -⟩ | ⟨e, hfault, -⟩ | ⟨-, -, hrest⟩
          · exact absurd hclosed hopen
          · exact absurd hfault (hsound e)
          · exact hrest _ hwritten
        · exact .cons hopen hwritten

end Reader

/-- **One datum is read from any stream.** Every stream of tokens takes exactly one of the five courses,
and that with exactly one result, which is what the reader yields and leaves. -/
theorem Datum.ofTokens_course (ts : List Token) : ∃ course, ∀ c r,
    Reader.Reads 0 [] ts c r ↔ c = course ∧ r = ofTokens ts :=
  Reader.exists_course [] ts

/-- The list is given up at the bad item, and the rest of it stays in the stream. -/
example : Datum.ofTokens [.leftParen, .item "a", .item "1x", .rightParen] =
    (.error (.erroneousToken "1x"), [.rightParen]) := by rfl

end ScopeLisp

import ScopeLisp.Datum.Reader

/-!
# What the reader accepts

The reader counts parentheses before it reads, and reads with a stack of open lists. What comes of
this is said without the stack: `Datum.Verdict` has the errors in the order in which they are looked
for, the last of them being that of the leftmost faulty token (`Token.FirstFault`), and otherwise
the data that the tokens spell out. The reader passes it on every text (`Datum.verdict_readText`),
and no other can be passed (`Datum.Verdict.eq_readText`). Equal counts do not mean that parentheses
match; but where none is stray, they leave no list open (`Token.openLists_add_count`).
-/

namespace ScopeLisp

/-- A token with the atom in the place of its text. -/
inductive Lexeme where
  | leftParen
  | rightParen
  | atom (d : Datum)

namespace Token

/-- The lexeme of a token, if it is not an item that is no atom. -/
def lexeme? : Token → Option Lexeme
  | .leftParen => some .leftParen
  | .rightParen => some .rightParen
  | .item text => (Datum.ofItem text).toOption.map .atom

/-- How many lists are open after a token. A parenthesis that closes nothing is passed over. -/
def openAfter (depth : Nat) : Token → Nat
  | .leftParen => depth + 1
  | .rightParen => depth - 1
  | .item _ => depth

/-- How many lists are open after some tokens, with `depth` of them open before. -/
def openLists (depth : Nat) (ts : List Token) : Nat := ts.foldl openAfter depth

/-- The token at place `n` cannot be read, where `depth` lists are open before the first one. -/
inductive Fault (depth : Nat) (ts : List Token) (n : Nat) : ReadError → Prop
  | stray (ht : ts[n]? = some .rightParen) (hopen : openLists depth (ts.take n) = 0) :
      Fault depth ts n (.erroneousToken ")")
  | item {text : String} (ht : ts[n]? = some (.item text))
      (hitem : ∀ d, Datum.ofItem text ≠ .ok d) : Fault depth ts n (.erroneousToken text)

/-- Some token cannot be read, for the reason `e`, and it is the leftmost one. -/
def FirstFault (depth : Nat) (ts : List Token) (e : ReadError) : Prop :=
  ∃ n, Fault depth ts n e ∧ ∀ m < n, ∀ e', ¬ Fault depth ts m e'

end Token

namespace Datum

mutual

/-- A datum written out. -/
def lexemes : Datum → List Lexeme
  | .list items => .leftParen :: (lexemesAll items ++ [.rightParen])
  | d => [.atom d]

def lexemesAll : List Datum → List Lexeme
  | [] => []
  | d :: ds => d.lexemes ++ lexemesAll ds

end

/-- What is to be said of a text. -/
inductive Verdict (code : String) : Except ReadError (List Datum) → Prop
  | unterminated (h : Token.scan? code = none) : Verdict code (.error .unterminatedString)
  | empty (h : Token.scan? code = some []) : Verdict code (.error .empty)
  | mismatched {ts : List Token} (h : Token.scan? code = some ts)
      (hcount : ts.count .leftParen ≠ ts.count .rightParen) :
      Verdict code (.error .mismatchedParens)
  | fault {ts : List Token} {e : ReadError} (h : Token.scan? code = some ts)
      (hcount : ts.count .leftParen = ts.count .rightParen) (hfault : Token.FirstFault 0 ts e) :
      Verdict code (.error e)
  | data {ts : List Token} {es : List Datum} (h : Token.scan? code = some ts) (hne : ts ≠ [])
      (hcount : ts.count .leftParen = ts.count .rightParen)
      (hsound : ∀ n e, ¬ Token.Fault 0 ts n e)
      (hes : ts.map Token.lexeme? = (lexemesAll es).map some) : Verdict code (.ok es)

end Datum

/-! ## Faults -/

namespace Token

variable {depth n : Nat} {t : Token} {ts : List Token} {e e' : ReadError}

theorem openLists_cons : openLists depth (t :: ts) = openLists (openAfter depth t) ts := rfl

/-- After the first token the rest is looked at with the lists that are open then. -/
theorem fault_cons_succ : Fault depth (t :: ts) (n + 1) e ↔ Fault (openAfter depth t) ts n e := by
  constructor
  · intro h
    cases h with
    | stray ht hopen => exact .stray ht hopen
    | item ht hitem => exact .item ht hitem
  · intro h
    cases h with
    | stray ht hopen => exact .stray ht hopen
    | item ht hitem => exact .item ht hitem

theorem Fault.unique (h : Fault depth ts n e) (h' : Fault depth ts n e') : e = e' := by
  cases h with
  | stray ht _ =>
    cases h' with
    | stray => rfl
    | item ht' _ =>
      rw [ht] at ht'
      cases ht'
  | item ht _ =>
    cases h' with
    | stray ht' _ =>
      rw [ht] at ht'
      cases ht'
    | item ht' _ =>
      rw [ht] at ht'
      cases ht'
      rfl

theorem FirstFault.unique (h : FirstFault depth ts e) (h' : FirstFault depth ts e') : e = e' := by
  obtain ⟨n, hn, hfirst⟩ := h
  obtain ⟨m, hm, hfirst'⟩ := h'
  rcases Nat.lt_trichotomy n m with hlt | rfl | hlt
  · exact absurd hn (hfirst' n hlt e)
  · exact hn.unique hm
  · exact absurd hm (hfirst m hlt e')

theorem FirstFault.eq_erroneousToken (h : FirstFault depth ts e) :
    ∃ text, e = .erroneousToken text := by
  obtain ⟨n, hn, -⟩ := h
  cases hn with
  | stray => exact ⟨_, rfl⟩
  | item => exact ⟨_, rfl⟩

theorem FirstFault.head (h : Fault depth (t :: ts) 0 e) : FirstFault depth (t :: ts) e :=
  ⟨0, h, fun m hm => absurd hm (Nat.not_lt_zero m)⟩

theorem FirstFault.cons (hhead : ∀ e', ¬ Fault depth (t :: ts) 0 e')
    (h : FirstFault (openAfter depth t) ts e) : FirstFault depth (t :: ts) e := by
  obtain ⟨n, hn, hfirst⟩ := h
  refine ⟨n + 1, fault_cons_succ.2 hn, fun m hm e' hfault => ?_⟩
  cases m with
  | zero => exact hhead e' hfault
  | succ m => exact hfirst m (Nat.lt_of_succ_lt_succ hm) e' (fault_cons_succ.1 hfault)

theorem sound_cons (hhead : ∀ e', ¬ Fault depth (t :: ts) 0 e')
    (h : ∀ n e', ¬ Fault (openAfter depth t) ts n e') : ∀ n e', ¬ Fault depth (t :: ts) n e' := by
  intro n e' hfault
  cases n with
  | zero => exact hhead e' hfault
  | succ n => exact h n e' (fault_cons_succ.1 hfault)

/-- Where nothing is stray, every right parenthesis closes a list. -/
theorem openLists_add_count (h : ∀ n e, ¬ Fault depth ts n e) :
    openLists depth ts + ts.count .rightParen = depth + ts.count .leftParen := by
  induction ts generalizing depth with
  | nil => rfl
  | cons t ts ih =>
    have hrest := ih fun n e hfault => h (n + 1) e (fault_cons_succ.2 hfault)
    rw [openLists_cons, List.count_cons, List.count_cons]
    cases t with
    | leftParen =>
      simp [openAfter] at hrest ⊢
      omega
    | rightParen =>
      have hdepth : depth ≠ 0 := by
        rintro rfl
        exact h 0 _ (.stray rfl rfl)
      simp [openAfter] at hrest ⊢
      omega
    | item text =>
      simp [openAfter] at hrest ⊢
      omega

end Token

/-! ## Written-out data are read in one way only -/

namespace Datum

/-- An item that is refused is named in the error. -/
theorem error_of_ofItem {text : String} {e : ReadError} (h : ofItem text = .error e) :
    e = .erroneousToken text := by
  unfold ofItem at h
  simp only at h
  split at h
  · cases h
  · split at h
    · split at h <;> cases h
      rfl
    · split at h <;> cases h
      rfl

theorem lexemes_of_ofItem {text : String} {d : Datum} (h : ofItem text = .ok d) :
    d.lexemes = [.atom d] := by
  cases d with
  | list items =>
    unfold ofItem at h
    simp only at h
    split at h
    · cases h
    · split at h
      · split at h <;> cases h
      · split at h <;> cases h
  | _ => rw [lexemes]; nofun

theorem lexemesAll_append (ds es : List Datum) :
    lexemesAll (ds ++ es) = lexemesAll ds ++ lexemesAll es := by
  induction ds with
  | nil => rfl
  | cons d ds ih => rw [List.cons_append, lexemesAll, lexemesAll, ih, List.append_assoc]

/-- A datum does not begin with the parenthesis that closes the list around it. -/
theorem lexemes_append_ne (d : Datum) (r r' : List Lexeme) :
    d.lexemes ++ r ≠ .rightParen :: r' := by
  intro h
  cases d <;> simp [lexemes] at h

mutual

theorem lexemes_append_inj : ∀ {d d' : Datum} {r r' : List Lexeme},
    d.lexemes ++ r = d'.lexemes ++ r' → d = d' ∧ r = r'
  | .list items, .list items', r, r', h => by
    simp only [lexemes, List.cons_append, List.append_assoc, List.nil_append, List.cons.injEq,
      true_and] at h
    obtain ⟨hitems, hr⟩ := lexemesAll_append_inj h
    exact ⟨by rw [hitems], hr⟩
  | .number _, .number _, _, _, h | .str _, .str _, _, _, h | .symbol _, .symbol _, _, _, h => by
    simpa [lexemes] using h
  | .list _, .number _, _, _, h | .list _, .str _, _, _, h | .list _, .symbol _, _, _, h
  | .number _, .list _, _, _, h | .str _, .list _, _, _, h | .symbol _, .list _, _, _, h
  | .number _, .str _, _, _, h | .number _, .symbol _, _, _, h | .str _, .number _, _, _, h
  | .str _, .symbol _, _, _, h | .symbol _, .number _, _, _, h | .symbol _, .str _, _, _, h => by
    simp [lexemes] at h

theorem lexemesAll_append_inj : ∀ {ds ds' : List Datum} {r r' : List Lexeme},
    lexemesAll ds ++ .rightParen :: r = lexemesAll ds' ++ .rightParen :: r' → ds = ds' ∧ r = r'
  | [], [], _, _, h => by simpa [lexemesAll] using h
  | [], d :: ds, r, r', h => by
    rw [lexemesAll, lexemesAll, List.append_assoc] at h
    exact absurd h.symm (lexemes_append_ne d _ _)
  | d :: ds, [], r, r', h => by
    rw [lexemesAll, lexemesAll, List.append_assoc] at h
    exact absurd h (lexemes_append_ne d _ _)
  | d :: ds, d' :: ds', r, r', h => by
    rw [lexemesAll, lexemesAll, List.append_assoc, List.append_assoc] at h
    obtain ⟨hd, hrest⟩ := lexemes_append_inj h
    obtain ⟨hds, hr⟩ := lexemesAll_append_inj hrest
    exact ⟨by rw [hd, hds], hr⟩

end

theorem lexemesAll_injective {ds es : List Datum} (h : lexemesAll ds = lexemesAll es) :
    ds = es := by
  have hclosed : lexemesAll ds ++ [.rightParen] = lexemesAll es ++ [.rightParen] := by rw [h]
  exact (lexemesAll_append_inj hclosed).1

end Datum

/-! ## The reader -/

namespace Reader

open Token Datum

variable {lists : List (List Datum)} {t : Token} {ts : List Token} {e : ReadError}

/-- What has been read of the lists that are still open. -/
def written : List (List Datum) → List Lexeme
  | [] => []
  | items :: outer => written outer ++ .leftParen :: lexemesAll items.reverse

def Progress.written : Progress → List Lexeme
  | .complete d => d.lexemes
  | .within lists => Reader.written lists

def Progress.depth : Progress → Nat
  | .complete _ => 0
  | .within lists => lists.length

theorem written_put (d : Datum) (lists : List (List Datum)) :
    (put d lists).written = written lists ++ d.lexemes := by
  cases lists with
  | nil => rfl
  | cons items outer =>
    simp [put, Progress.written, written, lexemesAll_append, lexemesAll]

theorem depth_put (d : Datum) (lists : List (List Datum)) :
    (put d lists).depth = lists.length := by
  cases lists <;> rfl

theorem fault_of_step (h : step lists t = .error e) : Fault lists.length (t :: ts) 0 e := by
  cases t with
  | leftParen => cases h
  | rightParen =>
    cases lists with
    | nil =>
      cases h
      exact .stray rfl rfl
    | cons => cases h
  | item text =>
    cases hd : ofItem text with
    | ok d =>
      rw [step, hd] at h
      cases h
    | error e' =>
      rw [step, hd] at h
      cases h
      rw [error_of_ofItem hd]
      exact .item rfl fun d hd' => by
        rw [hd] at hd'
        cases hd'

theorem not_fault_of_step {p : Progress} (h : step lists t = .ok p) (e : ReadError) :
    ¬ Fault lists.length (t :: ts) 0 e := by
  intro hfault
  cases hfault with
  | stray ht hopen =>
    cases ht
    have hnil : lists = [] := List.length_eq_zero_iff.1 hopen
    rw [hnil] at h
    cases h
  | @item text ht hitem =>
    cases ht
    cases hd : ofItem text with
    | ok d => exact hitem d hd
    | error e =>
      rw [step, hd] at h
      cases h

theorem depth_of_step {p : Progress} (h : step lists t = .ok p) :
    p.depth = openAfter lists.length t := by
  cases t with
  | leftParen =>
    cases h
    rfl
  | rightParen =>
    cases lists with
    | nil => cases h
    | cons items outer =>
      cases h
      exact depth_put _ _
  | item text =>
    cases hd : ofItem text with
    | ok d =>
      rw [step, hd] at h
      cases h
      exact depth_put _ _
    | error e =>
      rw [step, hd] at h
      cases h

/-- A step writes the lexeme of its token. -/
theorem written_of_step {p : Progress} (h : step lists t = .ok p) :
    (written lists).map some ++ [t.lexeme?] = p.written.map some := by
  cases t with
  | leftParen =>
    cases h
    simp [Progress.written, written, lexemesAll, lexeme?]
  | rightParen =>
    cases lists with
    | nil => cases h
    | cons items outer =>
      cases h
      rw [written_put, written, lexemes]
      simp [lexeme?]
  | item text =>
    cases hd : ofItem text with
    | ok d =>
      rw [step, hd] at h
      cases h
      rw [written_put, lexemes_of_ofItem hd]
      simp [lexeme?, hd, Except.toOption]
    | error e =>
      rw [step, hd] at h
      cases h

/-- What comes of some tokens, where `depth` lists are open and `before` has been read. -/
inductive Reading (depth : Nat) (before : List Lexeme) (ts : List Token) :
    Except ReadError (List Datum) → Prop
  | fault {e : ReadError} (h : FirstFault depth ts e) : Reading depth before ts (.error e)
  | unclosed (hsound : ∀ n e, ¬ Fault depth ts n e) (hopen : openLists depth ts ≠ 0) :
      Reading depth before ts (.error .mismatchedParens)
  | data {es : List Datum} (hsound : ∀ n e, ¬ Fault depth ts n e) (hopen : openLists depth ts = 0)
      (hes : (lexemesAll es).map some = before.map some ++ ts.map lexeme?) :
      Reading depth before ts (.ok es)

theorem Reading.cons {depth : Nat} {before after : List Lexeme}
    {r : Except ReadError (List Datum)} (hhead : ∀ e, ¬ Fault depth (t :: ts) 0 e)
    (hwritten : before.map some ++ [t.lexeme?] = after.map some)
    (h : Reading (openAfter depth t) after ts r) : Reading depth before (t :: ts) r := by
  cases h with
  | fault h => exact .fault (h.cons hhead)
  | unclosed hsound hopen => exact .unclosed (sound_cons hhead hsound) hopen
  | data hsound hopen hes =>
    refine .data (sound_cons hhead hsound) hopen ?_
    rw [hes, ← hwritten, List.append_assoc, List.singleton_append, List.map_cons]

/-- The stack of the reader holds what has been read since the last complete datum. -/
theorem reading_readAll (lists : List (List Datum)) (done : List Datum) (ts : List Token) :
    Reading lists.length (lexemesAll done.reverse ++ written lists) ts (readAll lists done ts) := by
  induction ts generalizing lists done with
  | nil =>
    have hsound : ∀ n e, ¬ Fault lists.length [] n e := by
      intro n e hfault
      cases hfault with
      | stray ht _ => cases ht
      | item ht _ => cases ht
    rw [readAll]
    split
    · next hnil =>
      subst hnil
      exact .data hsound rfl (by simp [written])
    · next hne => exact .unclosed hsound fun hopen => hne (List.length_eq_zero_iff.1 hopen)
  | cons t ts ih =>
    rw [readAll]
    cases hp : step lists t with
    | error e => exact .fault (.head (fault_of_step hp))
    | ok p =>
      have hwritten : (lexemesAll done.reverse ++ written lists).map some ++ [t.lexeme?] =
          (lexemesAll done.reverse ++ p.written).map some := by
        rw [List.map_append, List.append_assoc, written_of_step hp, List.map_append]
      refine .cons (not_fault_of_step hp) hwritten ?_
      rw [← depth_of_step hp]
      cases p with
      | complete d =>
        have hd := ih [] (d :: done)
        rwa [List.reverse_cons, lexemesAll_append, written, List.append_nil, lexemesAll, lexemesAll,
          List.append_nil] at hd
      | within lists => exact ih lists done

theorem reading_readTokens (ts : List Token) : Reading 0 [] ts (readTokens ts) :=
  reading_readAll [] [] ts

end Reader

/-! ## Whole texts -/

namespace Datum

open Token

variable {code : String} {ts : List Token}

/-- Where the counts agree, the reader ends with the first fault or with the data spelled out, since
without a fault all lists are closed. -/
theorem readTokens_of_count_eq (hcount : ts.count .leftParen = ts.count .rightParen) :
    (∃ e, FirstFault 0 ts e ∧ readTokens ts = .error e) ∨
      (∀ n e, ¬ Fault 0 ts n e) ∧
        ∃ es, readTokens ts = .ok es ∧ ts.map lexeme? = (lexemesAll es).map some := by
  have hreading := Reader.reading_readTokens ts
  cases hr : readTokens ts with
  | error e =>
    rw [hr] at hreading
    cases hreading with
    | fault hfault => exact .inl ⟨e, hfault, rfl⟩
    | unclosed hsound hopen =>
      have hclosed := openLists_add_count hsound
      omega
  | ok es =>
    rw [hr] at hreading
    cases hreading with
    | data hsound _ hes => exact .inr ⟨hsound, es, rfl, hes.symm⟩

theorem readText_of_scan? (h : scan? code = some ts)
    (hcount : ts.count .leftParen = ts.count .rightParen) (hne : ts ≠ []) :
    readText code = readTokens ts := by
  rw [readText, h]
  simp only [if_neg hne, if_neg (not_not_intro hcount)]

theorem verdict_readText (code : String) : Verdict code (readText code) := by
  cases h : scan? code with
  | none =>
    rw [readText, h]
    exact .unterminated h
  | some ts =>
    by_cases hnil : ts = []
    · subst hnil
      rw [readText, h]
      exact .empty h
    · by_cases hcount : ts.count .leftParen = ts.count .rightParen
      · rw [readText_of_scan? h hcount hnil]
        rcases readTokens_of_count_eq hcount with ⟨e, hfault, hr⟩ | ⟨hsound, es, hr, hes⟩
        · rw [hr]
          exact .fault h hcount hfault
        · rw [hr]
          exact .data h hnil hcount hsound hes
      · rw [readText, h]
        simp only [if_neg hnil, if_pos hcount]
        exact .mismatched h hcount

theorem ne_nil_of_readText {es : List Datum} (h : readText code = .ok es) : es ≠ [] := by
  have hverdict := verdict_readText code
  rw [h] at hverdict
  cases hverdict with
  | data _ hne _ _ hes =>
    rintro rfl
    exact hne (List.map_eq_nil_iff.1 hes)

/-- A verdict can be passed on a text only if it is what the reader says. -/
theorem Verdict.eq_readText {r : Except ReadError (List Datum)} (h : Verdict code r) :
    readText code = r := by
  cases h with
  | unterminated h => rw [readText, h]
  | empty h =>
    rw [readText, h]
    rfl
  | @mismatched ts h hcount =>
    have hne : ts ≠ [] := by
      rintro rfl
      exact hcount rfl
    rw [readText, h]
    simp only [if_neg hne, if_pos hcount]
  | @fault ts e h hcount hfault =>
    have hne : ts ≠ [] := by
      rintro rfl
      obtain ⟨n, hn, -⟩ := hfault
      cases hn with
      | stray ht => cases ht
      | item ht => cases ht
    rw [readText_of_scan? h hcount hne]
    rcases readTokens_of_count_eq hcount with ⟨e', hfault', hr⟩ | ⟨hsound, -⟩
    · rw [hr, hfault.unique hfault']
    · obtain ⟨n, hn, -⟩ := hfault
      exact absurd hn (hsound n e)
  | @data ts es h hne hcount hsound hes =>
    rw [readText_of_scan? h hcount hne]
    rcases readTokens_of_count_eq hcount with ⟨e, ⟨n, hn, -⟩, -⟩ | ⟨-, es', hr, hes'⟩
    · exact absurd hn (hsound n e)
    · have hmap : (lexemesAll es').map some = (lexemesAll es).map some := hes'.symm.trans hes
      rw [hr, lexemesAll_injective ((List.map_inj_right fun _ _ => Option.some.inj).1 hmap)]

/-- **What the reader accepts and refuses.** A text is refused as unterminated, as empty, for its
numbers of parentheses, or for its leftmost stray parenthesis or bad item, whichever of these comes
first; any other text is read as the data that its tokens spell out. Once the counts agree, no list
is found open at the end and nothing is found missing. -/
theorem readText_eq_iff_verdict :
    (∀ (code : String) (r : Except ReadError (List Datum)), readText code = r ↔ Verdict code r) ∧
      ∀ ts : List Token, ts.count .leftParen = ts.count .rightParen →
        readTokens ts ≠ .error .mismatchedParens ∧ readTokens ts ≠ .error .empty := by
  refine ⟨fun code r => ⟨fun h => h ▸ verdict_readText code, fun h => h.eq_readText⟩, ?_⟩
  intro ts hcount
  rcases readTokens_of_count_eq hcount with ⟨e, hfault, hr⟩ | ⟨-, es, hr, -⟩
  · obtain ⟨text, rfl⟩ := hfault.eq_erroneousToken
    rw [hr]
    exact ⟨nofun, nofun⟩
  · rw [hr]
    exact ⟨nofun, nofun⟩

/-- There are as many parentheses of either kind, and the bad item comes before the stray one. -/
theorem readText_verdict_of_bad_item :
    Verdict "((a 1x)) ) (" (.error (.erroneousToken "1x")) ∧
      [Token.rightParen, .leftParen].count .leftParen =
        [Token.rightParen, .leftParen].count .rightParen ∧
      readTokens [.rightParen, .leftParen] ≠ .error .mismatchedParens ∧
      readTokens [.rightParen, .leftParen] ≠ .error .empty := by
  have hread : readText "((a 1x)) ) (" = .error (.erroneousToken "1x") := by rfl
  exact ⟨(readText_eq_iff_verdict.1 _ _).1 hread, rfl, readText_eq_iff_verdict.2 _ rfl⟩

end Datum

end ScopeLisp

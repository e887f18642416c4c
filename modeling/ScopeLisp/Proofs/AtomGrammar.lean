import ScopeLisp.Proofs.Readable

/-!
# The grammar of atoms

An item is a quoted string, a numeral, a name, or it is refused. The grammar of numerals is written out
here as the texts that a numeral can have (`Number.Numeral.Spelling`), and the reader of numerals accepts
these and no others (`Numeral.ofChars?_eq_some_iff`). Which items start like a number is settled by two
characters. That test lets all numerals through, and of the items made of the characters of symbols it
holds back just those that start with a digit or with a sign and a digit; so every item is sorted as its
grammar says (`Datum.ofItem_classified`), and the words for infinity and for no number are symbols.
-/

namespace ScopeLisp

namespace Number

/-! ## Numerals as they are written -/

/-- One digit or more. -/
def AreDigits (cs : List Char) : Prop := cs ≠ [] ∧ ∀ c ∈ cs, c.isDigit = true

/-- An optional sign, with `true` for minus. -/
inductive Sign : Bool → List Char → Prop
  | none : Sign false []
  | plus : Sign false ['+']
  | minus : Sign true ['-']

/-- Digits with at most one point after, among or before them. -/
inductive Mantissa : (whole fraction : List Char) → List Char → Prop
  | whole {ds : List Char} (h : AreDigits ds) : Mantissa ds [] ds
  | point {ds fs : List Char} (h : AreDigits ds) (hfs : ∀ c ∈ fs, c.isDigit = true) :
      Mantissa ds fs (ds ++ '.' :: fs)
  | fraction {fs : List Char} (h : AreDigits fs) : Mantissa [] fs ('.' :: fs)

/-- An optional exponent. -/
inductive Exponent : Int → List Char → Prop
  | none : Exponent 0 []
  | written {e : Char} {negative : Bool} {sign ds : List Char} (he : e = 'e' ∨ e = 'E')
      (hsign : Sign negative sign) (hds : AreDigits ds) :
      Exponent (if negative then -digitsValue ds else digitsValue ds) (e :: (sign ++ ds))

/-- A text of the numeral. -/
inductive Numeral.Spelling : Numeral → List Char → Prop
  | intro {negative : Bool} {whole fraction sign mantissa exponent : List Char} {k : Int}
      (hsign : Sign negative sign) (hmantissa : Mantissa whole fraction mantissa)
      (hexponent : Exponent k exponent) :
      Spelling ⟨negative, whole, fraction, k⟩ (sign ++ (mantissa ++ exponent))

/-- A word for infinity or for no number, in any letter case and with an optional sign. -/
def IsWord (cs : List Char) : Prop :=
  ∃ negative sign word, Sign negative sign ∧ cs = sign ++ word ∧
    String.ofList (word.map Char.toLower) ∈ ["inf", "infinity", "nan"]

/-! ## Signs -/

/-- Does not start with a sign. -/
def Unsigned (cs : List Char) : Prop := ∀ c ∈ cs.head?, c ≠ '-' ∧ c ≠ '+'

theorem splitSign_append {negative : Bool} {sign cs : List Char} (h : Sign negative sign)
    (hcs : Unsigned cs) : splitSign (sign ++ cs) = (negative, cs) := by
  cases h with
  | plus | minus => rfl
  | none =>
    rw [List.nil_append]
    unfold splitSign
    split
    · exact absurd rfl (hcs '-' rfl).1
    · exact absurd rfl (hcs '+' rfl).2
    · rfl

theorem exists_sign {negative : Bool} {cs unsigned : List Char}
    (h : splitSign cs = (negative, unsigned)) : ∃ sign, Sign negative sign ∧ cs = sign ++ unsigned := by
  unfold splitSign at h
  split at h <;> cases h
  · exact ⟨_, .minus, rfl⟩
  · exact ⟨_, .plus, rfl⟩
  · exact ⟨_, .none, rfl⟩

theorem unsigned_of_isDigit {c : Char} {cs : List Char} (h : c.isDigit = true) :
    Unsigned (c :: cs) := by
  intro d hd
  cases hd
  exact ⟨fun hc => (nomatch hc ▸ h), fun hc => (nomatch hc ▸ h)⟩

theorem AreDigits.unsigned {ds : List Char} (h : AreDigits ds) (cs : List Char) :
    Unsigned (ds ++ cs) := by
  obtain ⟨c, ds, rfl⟩ := List.exists_cons_of_ne_nil h.1
  exact unsigned_of_isDigit (h.2 c List.mem_cons_self)

theorem Mantissa.unsigned {whole fraction mantissa : List Char} (h : Mantissa whole fraction mantissa)
    (cs : List Char) : Unsigned (mantissa ++ cs) := by
  cases h with
  | whole h => exact h.unsigned cs
  | point h =>
    rw [List.append_assoc]
    exact h.unsigned _
  | fraction =>
    intro c hc
    cases hc
    decide

/-! ## Exponents -/

theorem exponent?_eq_some_iff {cs : List Char} {k : Int} :
    Numeral.exponent? cs = some k ↔ Exponent k cs := by
  constructor
  · intro h
    unfold Numeral.exponent? at h
    split at h
    · cases h
      exact .none
    · next e cs =>
      split at h
      next negative ds hsplit =>
      obtain ⟨sign, hsign, rfl⟩ := exists_sign hsplit
      split at h
      · next hexponent =>
        cases h
        obtain ⟨he, hne, hds⟩ := hexponent
        exact .written he hsign ⟨hne, by simpa using hds⟩
      · cases h
  · intro h
    cases h with
    | none => rfl
    | @written e negative sign ds he hsign hds =>
      have hsplit : splitSign (sign ++ ds) = (negative, ds) :=
        splitSign_append hsign (by simpa using hds.unsigned [])
      have hall : ds.all Char.isDigit = true := by simpa using hds.2
      simp only [Numeral.exponent?, hsplit]
      rw [if_pos ⟨he, hds.1, hall⟩]

/-- Neither a digit nor a point follows the digits of a numeral. -/
theorem Exponent.head {k : Int} {cs : List Char} (h : Exponent k cs) :
    ∀ c ∈ cs.head?, c.isDigit = false ∧ c ≠ '.' := by
  intro c hc
  cases h with
  | none => cases hc
  | written he =>
    cases hc
    rcases he with rfl | rfl <;> decide

/-! ## Digits and the point -/

theorem takeWhile_append_of_head {p : Char → Bool} {ds rest : List Char} (h : ∀ c ∈ ds, p c = true)
    (hrest : ∀ c ∈ rest.head?, p c = false) :
    (ds ++ rest).takeWhile p = ds ∧ (ds ++ rest).dropWhile p = rest := by
  rw [List.takeWhile_append_of_pos h, List.dropWhile_append_of_pos h]
  cases rest with
  | nil => simp
  | cons c rest => simp [hrest c rfl]

theorem splitFraction_of_head {cs : List Char} (h : ∀ c ∈ cs.head?, c ≠ '.') :
    Numeral.splitFraction cs = ([], cs) := by
  unfold Numeral.splitFraction
  split
  · exact absurd rfl (h '.' rfl)
  · rfl

theorem Mantissa.split {whole fraction mantissa rest : List Char}
    (h : Mantissa whole fraction mantissa)
    (hrest : ∀ c ∈ rest.head?, c.isDigit = false ∧ c ≠ '.') :
    (mantissa ++ rest).takeWhile Char.isDigit = whole ∧
      Numeral.splitFraction ((mantissa ++ rest).dropWhile Char.isDigit) = (fraction, rest) ∧
      ¬ (whole = [] ∧ fraction = []) := by
  have hdigit : ∀ c ∈ rest.head?, c.isDigit = false := fun c hc => (hrest c hc).1
  cases h with
  | whole h =>
    obtain ⟨htake, hdrop⟩ := takeWhile_append_of_head h.2 hdigit
    rw [htake, hdrop]
    exact ⟨rfl, splitFraction_of_head fun c hc => (hrest c hc).2, fun hnil => h.1 hnil.1⟩
  | point h hfs =>
    have hpoint : ∀ c ∈ ('.' :: (fraction ++ rest)).head?, c.isDigit = false := by
      intro c hc
      cases hc
      rfl
    rw [List.append_assoc, List.cons_append]
    obtain ⟨htake, hdrop⟩ := takeWhile_append_of_head h.2 hpoint
    obtain ⟨htake', hdrop'⟩ := takeWhile_append_of_head hfs hdigit
    rw [htake, hdrop]
    refine ⟨rfl, ?_, fun hnil => h.1 hnil.1⟩
    show ((fraction ++ rest).takeWhile Char.isDigit, (fraction ++ rest).dropWhile Char.isDigit) = _
    rw [htake', hdrop']
  | fraction h =>
    obtain ⟨htake, hdrop⟩ := takeWhile_append_of_head h.2 hdigit
    refine ⟨rfl, ?_, fun hnil => h.1 hnil.2⟩
    show ((fraction ++ rest).takeWhile Char.isDigit, (fraction ++ rest).dropWhile Char.isDigit) = _
    rw [htake, hdrop]

theorem exists_mantissa {cs fraction rest : List Char}
    (hsplit : Numeral.splitFraction (cs.dropWhile Char.isDigit) = (fraction, rest))
    (hne : ¬ (cs.takeWhile Char.isDigit = [] ∧ fraction = [])) :
    ∃ mantissa, Mantissa (cs.takeWhile Char.isDigit) fraction mantissa ∧ cs = mantissa ++ rest := by
  have hwhole : ∀ c ∈ cs.takeWhile Char.isDigit, c.isDigit = true :=
    fun c hc => List.mem_takeWhile_imp hc
  have hcs : cs.takeWhile Char.isDigit ++ cs.dropWhile Char.isDigit = cs := List.takeWhile_append_dropWhile
  unfold Numeral.splitFraction at hsplit
  split at hsplit
  · next after hafter =>
    cases hsplit
    have hfraction : ∀ c ∈ after.takeWhile Char.isDigit, c.isDigit = true :=
      fun c hc => List.mem_takeWhile_imp hc
    rw [hafter] at hcs
    by_cases hnil : cs.takeWhile Char.isDigit = []
    · rw [hnil] at hcs ⊢
      refine ⟨_, .fraction ⟨fun h => hne ⟨hnil, h⟩, hfraction⟩, ?_⟩
      rw [List.cons_append, List.takeWhile_append_dropWhile]
      exact hcs.symm
    · refine ⟨_, .point ⟨hnil, hwhole⟩ hfraction, ?_⟩
      rw [List.append_assoc, List.cons_append, List.takeWhile_append_dropWhile, hcs]
  · cases hsplit
    exact ⟨_, .whole ⟨fun h => hne ⟨h, rfl⟩, hwhole⟩, hcs.symm⟩

/-- The reader of numerals accepts what is a text of a numeral, and reads that numeral. -/
theorem Numeral.ofChars?_eq_some_iff {cs : List Char} {n : Numeral} :
    ofChars? cs = some n ↔ n.Spelling cs := by
  constructor
  · intro h
    cases hsplit : splitSign cs with
    | mk negative unsigned =>
      cases hfraction : splitFraction (unsigned.dropWhile Char.isDigit) with
      | mk fraction rest =>
        simp only [ofChars?, hsplit, hfraction] at h
        split at h
        · cases h
        · next hne =>
          obtain ⟨k, hk, rfl⟩ := Option.map_eq_some_iff.1 h
          obtain ⟨sign, hsign, rfl⟩ := exists_sign hsplit
          obtain ⟨mantissa, hmantissa, hunsigned⟩ := exists_mantissa hfraction hne
          have hspelling := Spelling.intro hsign hmantissa (exponent?_eq_some_iff.1 hk)
          rwa [← hunsigned] at hspelling
  · intro h
    cases h with
    | @intro negative whole fraction sign mantissa exponent k hsign hmantissa hexponent =>
      have hsplit := splitSign_append hsign (hmantissa.unsigned exponent)
      obtain ⟨htake, hdrop, hne⟩ := hmantissa.split hexponent.head
      simp only [ofChars?, hsplit, htake, hdrop]
      rw [if_neg hne, exponent?_eq_some_iff.2 hexponent]
      rfl

/-! ## Words -/

theorem isAlpha_of_toLower {c : Char} (h : c.toLower.isAlpha = true) : c.isAlpha = true := by
  unfold Char.toLower at h
  split at h
  · next hupper =>
    have hc : c.isUpper = true := by simpa [Char.isUpper] using hupper
    simp [Char.isAlpha, hc]
  · exact h

theorem isDigit_eq_false_of_isAlpha {c : Char} (h : c.isAlpha = true) : c.isDigit = false := by
  simp only [Char.isAlpha, Char.isUpper, Char.isLower, Bool.or_eq_true, Bool.and_eq_true,
    decide_eq_true_eq, ge_iff_le, UInt32.le_iff_toNat_le] at h
  simp only [Char.isDigit, Bool.and_eq_false_iff, decide_eq_false_iff_not, ge_iff_le,
    UInt32.le_iff_toNat_le]
  have hlimits : '9'.val.toNat < 'A'.val.toNat ∧ '9'.val.toNat < 'a'.val.toNat := by decide
  omega

/-- A word is made of letters. -/
theorem isAlpha_of_word {word : List Char}
    (h : String.ofList (word.map Char.toLower) ∈ ["inf", "infinity", "nan"]) :
    word ≠ [] ∧ ∀ c ∈ word, c.isAlpha = true := by
  have hletters : ∀ w ∈ ["inf", "infinity", "nan"], w.toList ≠ [] ∧ ∀ c ∈ w.toList, c.isAlpha = true := by
    simp
  obtain ⟨hne, hall⟩ := hletters _ h
  rw [String.toList_ofList] at hne hall
  exact ⟨fun hnil => hne (by rw [hnil]; rfl),
    fun c hc => isAlpha_of_toLower (hall _ (List.mem_map_of_mem hc))⟩

theorem unsigned_of_isAlpha {word : List Char} (h : ∀ c ∈ word, c.isAlpha = true) : Unsigned word := by
  intro c hc
  have hletter := h c (List.mem_of_mem_head? hc)
  exact ⟨fun hsign => (nomatch hsign ▸ hletter), fun hsign => (nomatch hsign ▸ hletter)⟩

/-- What reads as a number: the numerals, and the words. -/
theorem isSome_ofText?_iff {text : String} : (ofText? text).isSome = true ↔
    (∃ n : Numeral, n.Spelling text.toList) ∨ IsWord text.toList := by
  unfold ofText?
  cases hchars : Numeral.ofChars? text.toList with
  | some n => exact iff_of_true rfl (.inl ⟨n, Numeral.ofChars?_eq_some_iff.1 hchars⟩)
  | none =>
    have hnone : ¬ ∃ n : Numeral, n.Spelling text.toList := by
      rintro ⟨n, hn⟩
      rw [Numeral.ofChars?_eq_some_iff.2 hn] at hchars
      cases hchars
    rw [or_iff_right hnone]
    cases hsplit : splitSign text.toList with
    | mk negative word =>
      have hword : IsWord text.toList ↔
          String.ofList (word.map Char.toLower) ∈ ["inf", "infinity", "nan"] := by
        constructor
        · rintro ⟨negative', sign, word', hsign, hcs, hword⟩
          have hunsigned := unsigned_of_isAlpha (isAlpha_of_word hword).2
          rw [hcs, splitSign_append hsign hunsigned] at hsplit
          cases hsplit
          exact hword
        · intro hword
          obtain ⟨sign, hsign, hcs⟩ := exists_sign hsplit
          exact ⟨negative, sign, word, hsign, hcs, hword⟩
      rw [hword]
      simp only [List.mem_cons, List.not_mem_nil, or_false]
      split
      · next h => exact iff_of_true rfl (by tauto)
      · split
        · next h => exact iff_of_true rfl (by tauto)
        · exact iff_of_false nofun (by tauto)

end Number

/-! ## What an item stands for -/

namespace Datum

open Number

/-- Is made of letters, digits and `_+-*/<>=`, and does not start with a digit or with a sign and a
digit. -/
structure IsName (cs : List Char) : Prop where
  chars : ∀ c ∈ cs, isSymbolChar c = true
  start : ∀ negative sign c rest, Sign negative sign → c.isDigit = true → cs ≠ sign ++ c :: rest

theorem unquote?_eq_some_iff {cs inside : List Char} :
    unquote? cs = some inside ↔ cs = '"' :: (inside ++ ['"']) := by
  constructor
  · intro h
    unfold unquote? at h
    split at h
    · next cs =>
      split at h
      · next hlast =>
        cases h
        rw [List.dropLast_append_getLast? '"' hlast]
      · cases h
    · cases h
  · rintro rfl
    exact unquote?_quoted inside

/-- Without a point, it is only a digit, or a sign and a digit, that starts a number. -/
theorem startsNumber_eq_false_iff {cs : List Char} (hcs : ∀ c ∈ cs, isSymbolChar c = true) :
    startsNumber cs = false ↔
      ∀ negative sign c rest, Sign negative sign → c.isDigit = true → cs ≠ sign ++ c :: rest := by
  have hpoint : ∀ c, isSymbolChar c = true → c ≠ '.' := by
    rintro c hc rfl
    revert hc
    decide
  have not_digit : ∀ {c : Char}, (c.isDigit = true → False) → c.isDigit = false :=
    fun h => Bool.eq_false_iff.2 h
  constructor
  · rintro h negative sign c rest hsign hc rfl
    cases hsign with
    | none =>
      unfold startsNumber at h
      split at h <;> simp_all
    | plus | minus => simp [startsNumber, hc] at h
  · intro h
    unfold startsNumber
    split
    · next c rest =>
      have hdigit : c.isDigit = false := not_digit fun hc => h true ['-'] c rest .minus hc rfl
      simp [hdigit, hpoint c (hcs c (by simp))]
    · next c rest =>
      have hdigit : c.isDigit = false := not_digit fun hc => h false ['+'] c rest .plus hc rfl
      simp [hdigit, hpoint c (hcs c (by simp))]
    · exact absurd rfl (hpoint '.' (hcs '.' List.mem_cons_self))
    · next c rest _ _ _ => exact not_digit fun hc => h false [] c rest .none hc rfl
    · rfl

theorem IsName.of_word {cs : List Char} (h : IsWord cs) : IsName cs := by
  obtain ⟨negative, sign, word, hsign, rfl, hword⟩ := h
  obtain ⟨hne, hletters⟩ := isAlpha_of_word hword
  constructor
  · intro c hc
    rcases List.mem_append.1 hc with hc | hc
    · cases hsign <;> simp at hc <;> subst hc <;> decide
    · simp [isSymbolChar, Char.isAlphanum, hletters c hc]
  · intro negative' sign' c rest hsign' hc hcs
    have hsplit := splitSign_append hsign (unsigned_of_isAlpha hletters)
    rw [hcs, splitSign_append hsign' (unsigned_of_isDigit hc)] at hsplit
    cases hsplit
    rw [isDigit_eq_false_of_isAlpha (hletters c List.mem_cons_self)] at hc
    cases hc

section Sorting

variable {text : String} {n : Numeral}

theorem ofItem_of_quoted {body : List Char} (h : text.toList = '"' :: (body ++ ['"'])) :
    ofItem text = .ok (.str (String.ofList body)) := by
  simp only [ofItem, unquote?_eq_some_iff.2 h]

theorem unquote?_of_spelling (h : n.Spelling text.toList) : unquote? text.toList = none := by
  have hstart := startsNumber_of_numeral (Numeral.ofChars?_eq_some_iff.2 h)
  unfold unquote?
  split
  · next cs hcs =>
    rw [hcs] at hstart
    cases cs <;> cases hstart
  · rfl

theorem ofItem_of_spelling (h : n.Spelling text.toList) : ofItem text = .ok (.number n.toFloat) := by
  have hread := Numeral.ofChars?_eq_some_iff.2 h
  simp only [ofItem, unquote?_of_spelling h, startsNumber_of_numeral hread, hread]
  rfl

theorem ofText?_of_spelling (h : n.Spelling text.toList) : ofText? text = some n.toFloat := by
  simp only [ofText?, Numeral.ofChars?_eq_some_iff.2 h]

theorem isNaN_toFloat (n : Numeral) : n.toFloat.isNaN = false := by
  rw [Bool.eq_false_iff]
  exact fun h => absurd ((isNaN_iff _).1 h) (Nat.not_lt.2 n.magnitudeBits_toFloat_le)

theorem ofItem_of_isName (h : IsName text.toList) : ofItem text = .ok (.symbol text) :=
  ofItem_symbol h.chars ((startsNumber_eq_false_iff h.chars).2 h.start)

/-- What starts like a number and is none is refused, and so is what has other characters. -/
theorem ofItem_of_none (hquoted : ∀ body, text.toList ≠ '"' :: (body ++ ['"']))
    (hnumeral : ∀ n : Numeral, ¬ n.Spelling text.toList) (hname : ¬ IsName text.toList) :
    ofItem text = .error (.erroneousToken text) := by
  have hunquote : unquote? text.toList = none :=
    Option.eq_none_iff_forall_ne_some.2 fun body h => hquoted body (unquote?_eq_some_iff.1 h)
  have hread : Numeral.ofChars? text.toList = none :=
    Option.eq_none_iff_forall_ne_some.2 fun n h => hnumeral n (Numeral.ofChars?_eq_some_iff.1 h)
  simp only [ofItem, hunquote, hread]
  split
  · rfl
  · next hstart =>
    split
    · next hchars =>
      have hchars : ∀ c ∈ text.toList, isSymbolChar c = true := by simpa using hchars
      exact absurd ⟨hchars, (startsNumber_eq_false_iff hchars).1 (by simpa using hstart)⟩ hname
    · rfl

end Sorting

/-- **Items are sorted by their grammar.** A quoted string stands for what is between its quotes, a text of
a numeral for the number that it reads as, which is never the one that is no number, and a name for its
symbol; every other item is refused. The words that read as numbers too are names. -/
theorem ofItem_classified (text : String) :
    (∀ body, text.toList = '"' :: (body ++ ['"']) → ofItem text = .ok (.str (String.ofList body))) ∧
    ((∃ n : Numeral, n.Spelling text.toList) → ∃ x, Number.ofText? text = some x ∧ x.isNaN = false ∧
      ofItem text = .ok (.number x)) ∧
    (IsName text.toList → ofItem text = .ok (.symbol text)) ∧
    ((∀ body, text.toList ≠ '"' :: (body ++ ['"'])) → (¬ ∃ n : Numeral, n.Spelling text.toList) →
      ¬ IsName text.toList → ofItem text = .error (.erroneousToken text)) ∧
    (IsWord text.toList → ofItem text = .ok (.symbol text)) ∧
    ((Number.ofText? text).isSome = true ↔
      (∃ n : Numeral, n.Spelling text.toList) ∨ IsWord text.toList) := by
  refine ⟨fun body => ofItem_of_quoted, ?_, ofItem_of_isName, ?_, ?_, isSome_ofText?_iff⟩
  · rintro ⟨n, hn⟩
    exact ⟨n.toFloat, ofText?_of_spelling hn, isNaN_toFloat n, ofItem_of_spelling hn⟩
  · intro hquoted hnumeral hname
    exact ofItem_of_none hquoted (fun n hn => hnumeral ⟨n, hn⟩) hname
  · exact fun hword => ofItem_of_isName (.of_word hword)

end Datum

end ScopeLisp

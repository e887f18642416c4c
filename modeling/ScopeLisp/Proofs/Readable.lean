import ScopeLisp.Datum.Reader
import ScopeLisp.Proofs.NumberText
import ScopeLisp.Proofs.Scanning

/-!
# Data that can be read

`Datum.Readable` says what data the reader makes: strings with paired escapes, symbols that do not look
like numbers, and no number that is none. `readable_of_ofItem` is that it makes no others. Such data are
written as well-formed tokens again (`Readable.writes`), and an atom is read back from its token
(`Readable.ofItem_text`). The one exception is an infinite number. Its text is a word, so that it is read
back as a symbol; `Datum.reread` is the datum with such symbols in the place of infinite numbers.
-/

namespace ScopeLisp

open Number Scanner

/-! ## Characters of items -/

namespace Datum

theorem toNat_lt_of_isSymbolChar {c : Char} (h : isSymbolChar c = true) : c.toNat < 128 := by
  rw [isSymbolChar, Bool.or_eq_true] at h
  rcases h with h | h
  · simp only [Char.isAlphanum, Char.isAlpha, Char.isUpper, Char.isLower, Char.isDigit, Bool.or_eq_true,
      Bool.and_eq_true, decide_eq_true_eq, ge_iff_le, UInt32.le_iff_toNat_le] at h
    have hlimits : 'Z'.val.toNat < 128 ∧ 'z'.val.toNat < 128 ∧ '9'.val.toNat < 128 := by decide
    show c.val.toNat < 128
    omega
  · have hall : "_+-*/<>=".toList.all (fun c => c.toNat < 128) = true := by decide
    exact of_decide_eq_true (List.all_eq_true.1 hall c (by simpa using h))

theorem isBare_of_isSymbolChar {c : Char} (h : isSymbolChar c = true) : isBare c = true := by
  have hall : ∀ n < 128, isSymbolChar (Char.ofNat n) = true → isBare (Char.ofNat n) = true := by
    decide +kernel
  rw [← Char.ofNat_toNat c] at h ⊢
  exact hall _ (toNat_lt_of_isSymbolChar (by rwa [Char.ofNat_toNat] at h)) h

theorem isSymbolChar_of_isDigit {c : Char} (h : c.isDigit = true) : isSymbolChar c = true := by
  simp [isSymbolChar, Char.isAlphanum, h]

/-- The text of a number is a bare item. -/
theorem isBare_of_mem_chars {x : Float} (h : magnitudeBits x ≤ infinityBits) {c : Char}
    (hc : c ∈ Number.chars x) : isBare c = true := by
  rcases Nat.lt_or_eq_of_le h with hfinite | hinfinite
  · rcases mem_chars_of_finite hfinite hc with hdigit | rfl | rfl
    · exact isBare_of_isSymbolChar (isSymbolChar_of_isDigit hdigit)
    · decide
    · decide
  · have hword : ['-', 'i', 'n', 'f'].all isBare = true := by decide
    rw [chars_of_infinite hinfinite] at hc
    split at hc
    · exact List.all_eq_true.1 hword c hc
    · exact List.all_eq_true.1 hword c (List.mem_cons_of_mem _ hc)

theorem chars_ne_nil {x : Float} (h : magnitudeBits x ≤ infinityBits) : Number.chars x ≠ [] := by
  rcases Nat.lt_or_eq_of_le h with hfinite | hinfinite
  · obtain ⟨n, hn, -⟩ := ofChars?_chars hfinite
    intro hnil
    rw [hnil] at hn
    cases hn
  · rw [chars_of_infinite hinfinite]
    split <;> exact List.cons_ne_nil _ _

end Datum

/-- What is read from an item. -/
inductive Datum.Readable : Datum → Prop
  | number {x : Float} (h : magnitudeBits x ≤ infinityBits) : Readable (.number x)
  | str {text : String} (h : Paired text.toList) : Readable (.str text)
  | symbol {name : String} (hne : name.toList ≠ []) (hchars : ∀ c ∈ name.toList, isSymbolChar c = true)
      (hstart : startsNumber name.toList = false) : Readable (.symbol name)
  | list {items : List Datum} (h : ∀ d ∈ items, Readable d) : Readable (.list items)

namespace Datum

theorem unquote?_quoted (body : List Char) : unquote? ('"' :: (body ++ ['"'])) = some body := by
  simp [unquote?]

theorem unquote?_bare {cs : List Char} (h : ∀ c ∈ cs, isBare c = true) : unquote? cs = none := by
  unfold unquote?
  split
  · next cs =>
    have hquote : isBare '"' = false := by decide
    rw [h '"' List.mem_cons_self] at hquote
    cases hquote
  · rfl

/-- The atoms that the reader makes are readable. -/
theorem readable_of_ofItem {text : String} {d : Datum} (ht : (Token.item text).WellFormed)
    (h : ofItem text = .ok d) : d.Readable := by
  cases ht with
  | @quoted body hbody =>
    simp only [ofItem, String.toList_ofList, unquote?_quoted] at h
    cases h
    exact .str (by rwa [String.toList_ofList])
  | @bare cs hne hbare =>
    simp only [ofItem, String.toList_ofList, unquote?_bare hbare] at h
    split at h
    · split at h
      · next n _ =>
        cases h
        exact .number n.magnitudeBits_toFloat_le
      · cases h
    · next hstart =>
      split at h
      · next hchars =>
        cases h
        refine .symbol ?_ ?_ ?_
        · rwa [String.toList_ofList]
        · simpa using hchars
        · simpa using hstart
      · cases h

/-! ## Writing and reading again -/

mutual

/-- The datum as it is read back from its text. -/
def reread : Datum → Datum
  | .number x => if x.isInf then .symbol (Number.text x) else .number x
  | .list items => .list (rereadAll items)
  | d => d

def rereadAll : List Datum → List Datum
  | [] => []
  | d :: ds => d.reread :: rereadAll ds

end

mutual

def tokens : Datum → List Token
  | .list items => .leftParen :: (tokensAll items ++ [.rightParen])
  | d => [.item d.text]

def tokensAll : List Datum → List Token
  | [] => []
  | d :: ds => d.tokens ++ tokensAll ds

end

theorem rereadAll_eq_map (ds : List Datum) : rereadAll ds = ds.map reread := by
  induction ds with
  | nil => rfl
  | cons d ds ih => rw [rereadAll, ih, List.map_cons]

theorem writes_charsAll {ds : List Datum} (h : ∀ d ∈ ds, Writes d.chars d.tokens) :
    Writes (charsAll ds) (tokensAll ds) := by
  induction ds with
  | nil => exact .nil
  | cons d ds ih =>
    have hd := h d List.mem_cons_self
    have hds := ih fun d' hd' => h d' (List.mem_cons_of_mem _ hd')
    by_cases hnil : ds = []
    · subst hnil
      simpa [charsAll, tokensAll] using hd
    · rw [charsAll_cons d hnil]
      exact hd.space hds

/-- A readable datum is scanned as its tokens. -/
theorem Readable.writes {d : Datum} (h : d.Readable) : Writes d.chars d.tokens := by
  induction h with
  | number h => exact .bare (chars_ne_nil h) fun c hc => isBare_of_mem_chars h hc
  | str h => exact .quoted h
  | @symbol name hne hchars _ =>
    exact .bare hne fun c hc => isBare_of_isSymbolChar (hchars c hc)
  | list _ ih => exact .paren (writes_charsAll ih)

/-! ## Atoms read back -/

theorem ofItem_number {x : Float} (h : magnitudeBits x ≤ infinityBits) :
    ofItem (String.ofList (Number.chars x)) = .ok (reread (.number x)) := by
  have hbare : unquote? (Number.chars x) = none :=
    unquote?_bare fun c hc => isBare_of_mem_chars h hc
  rcases Nat.lt_or_eq_of_le h with hfinite | hinfinite
  · obtain ⟨n, hn, htoFloat⟩ := ofChars?_chars hfinite
    have hisInf : ¬ x.isInf = true := fun h => Nat.ne_of_lt hfinite ((isInf_iff x).1 h)
    simp only [ofItem, String.toList_ofList, hbare, startsNumber_of_numeral hn, hn, htoFloat]
    rw [reread, if_neg hisInf]
    rfl
  · have hisInf : x.isInf = true := (isInf_iff x).2 hinfinite
    rw [reread, if_pos hisInf, Number.text, chars_of_infinite hinfinite]
    split <;> rfl

theorem ofItem_quoted {text : String} :
    ofItem (String.ofList ('"' :: (text.toList ++ ['"']))) = .ok (.str text) := by
  simp only [ofItem, String.toList_ofList, unquote?_quoted, String.ofList_toList]

theorem ofItem_symbol {name : String} (hchars : ∀ c ∈ name.toList, isSymbolChar c = true)
    (hstart : startsNumber name.toList = false) : ofItem name = .ok (.symbol name) := by
  have hbare : unquote? name.toList = none :=
    unquote?_bare fun c hc => isBare_of_isSymbolChar (hchars c hc)
  simp only [ofItem, hbare, hstart]
  rw [if_neg Bool.false_ne_true, if_pos (by simpa using hchars)]

/-! ## What changes in reading again -/

theorem reread_number {x : Float} : reread (.number x) = .number x ↔ x.isInf = false := by
  rw [reread]
  split
  · next h => simp [h]
  · next h => simpa using h

theorem charsAll_rereadAll {ds : List Datum} (h : ∀ d ∈ ds, d.reread.chars = d.chars) :
    charsAll (rereadAll ds) = charsAll ds := by
  induction ds with
  | nil => rfl
  | cons d ds ih =>
    have hd := h d List.mem_cons_self
    have hds := ih fun d' hd' => h d' (List.mem_cons_of_mem _ hd')
    cases ds with
    | nil => exact hd
    | cons d' ds =>
      rw [charsAll_cons d (List.cons_ne_nil _ _), ← hds, ← hd]
      exact charsAll_cons d.reread (List.cons_ne_nil _ _)

theorem Readable.text_reread {d : Datum} (h : d.Readable) : d.reread.text = d.text := by
  have hchars : d.reread.chars = d.chars := by
    induction h with
    | @number x _ =>
      rw [reread]
      split
      · exact String.toList_ofList
      · rfl
    | str _ => rfl
    | symbol _ _ _ => rfl
    | list _ ih =>
      rw [reread, chars_list, chars_list, charsAll_rereadAll ih]
  rw [text, text, hchars]

/-- The datum `part` occurs in a datum. -/
inductive Inside (part : Datum) : Datum → Prop
  | self : Inside part part
  | item {d : Datum} {items : List Datum} (h : Inside part d) (hd : d ∈ items) :
      Inside part (.list items)

theorem inside_list {x : Float} {items : List Datum} :
    Inside (.number x) (.list items) ↔ ∃ d ∈ items, Inside (.number x) d := by
  constructor
  · intro h
    cases h with
    | item h hd => exact ⟨_, hd, h⟩
  · rintro ⟨d, hd, h⟩
    exact .item h hd

theorem map_reread_eq_iff {ds : List Datum} : ds.map reread = ds ↔ ∀ d ∈ ds, d.reread = d := by
  simpa using List.map_inj_left (l := ds) (f := reread) (g := fun d => d)

/-- A datum is read back as it is if and only if no number in it is infinite. -/
theorem Readable.reread_eq_iff {d : Datum} (h : d.Readable) :
    d.reread = d ↔ ∀ x, Inside (.number x) d → x.isInf = false := by
  induction h with
  | @number y _ =>
    rw [reread_number]
    constructor
    · intro hy x hx
      cases hx
      exact hy
    · exact fun h => h y .self
  | str _ => exact ⟨fun _ _ hx => (nomatch hx), fun _ => rfl⟩
  | symbol _ _ _ => exact ⟨fun _ _ hx => (nomatch hx), fun _ => rfl⟩
  | @list items _ ih =>
    rw [reread, rereadAll_eq_map, Datum.list.injEq, map_reread_eq_iff]
    constructor
    · intro h x hx
      obtain ⟨d, hd, hx⟩ := inside_list.1 hx
      exact (ih d hd).1 (h d hd) x hx
    · exact fun h d hd => (ih d hd).2 fun x hx => h x (.item hx hd)

end Datum

end ScopeLisp

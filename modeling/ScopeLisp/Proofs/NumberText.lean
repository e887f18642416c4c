import ScopeLisp.Number.Numeral
import ScopeLisp.Proofs.Doubles

/-!
# Numbers read back

A finite double is written as a decimal that rounds to it (`Decimal.nearest_shortest`). Here the text of
that decimal is read again: the reader finds its two parts (`Decimal.Written.ofChars?`) and from them the
same decimal (`Decimal.Written.magnitude`), so it comes to the same double (`ofChars?_chars`). An infinite
double is written as a word and is no numeral; but it can be read, from digits that are too large.
-/

namespace ScopeLisp.Number

/-! ## Decimals and their parts -/

theorem digitsValue_eq (digits : List Char) : digitsValue digits = Nat.ofDigitChars 10 digits 0 := rfl

/-- The point and the digits after it, if there are any. -/
def point (fraction : List Char) : List Char := if fraction = [] then [] else '.' :: fraction

/-- The two parts of a decimal as it is written. -/
structure Decimal.Written (d : Decimal) (whole fraction : List Char) : Prop where
  chars : d.chars = whole ++ point fraction
  ne_nil : whole ≠ []
  digits : ∀ c ∈ whole ++ fraction, c.isDigit = true
  places : fraction.length = d.places
  value : digitsValue (whole ++ fraction) = d.coefficient

theorem Decimal.exists_written (d : Decimal) : ∃ whole fraction, d.Written whole fraction := by
  have hdigit : ∀ c ∈ Nat.toDigits 10 d.coefficient, c.isDigit = true :=
    fun c hc => Nat.isDigit_of_mem_toDigits (by decide) (by decide) hc
  by_cases hplaces : d.places = 0
  · refine ⟨Nat.toDigits 10 d.coefficient, [], ?_, Nat.toDigits_ne_nil, ?_, hplaces.symm, ?_⟩
    · simp [Decimal.chars, point, hplaces]
    · simpa using hdigit
    · rw [List.append_nil, digitsValue_eq, Nat.ofDigitChars_ten_toDigits]
  · generalize hpadded : List.replicate (d.places + 1 - (Nat.toDigits 10 d.coefficient).length) '0' ++
      Nat.toDigits 10 d.coefficient = padded
    have hlen : d.places + 1 ≤ padded.length := by
      rw [← hpadded, List.length_append, List.length_replicate]
      omega
    have hfraction : (padded.drop (padded.length - d.places)).length = d.places := by
      rw [List.length_drop]
      omega
    refine ⟨padded.take (padded.length - d.places), padded.drop (padded.length - d.places), ?_, ?_,
      ?_, hfraction, ?_⟩
    · have hne : padded.drop (padded.length - d.places) ≠ [] := by
        rw [← List.length_pos_iff, hfraction]
        omega
      simp only [Decimal.chars, if_neg hplaces, hpadded, point, if_neg hne]
    · rw [← List.length_pos_iff, List.length_take]
      omega
    · rw [List.take_append_drop, ← hpadded]
      intro c hc
      rcases List.mem_append.1 hc with hc | hc
      · rw [List.eq_of_mem_replicate hc]
        rfl
      · exact hdigit c hc
    · rw [List.take_append_drop, ← hpadded, digitsValue_eq, Nat.ofDigitChars_append,
        Nat.ofDigitChars_replicate_zero, Nat.mul_zero, Nat.ofDigitChars_ten_toDigits]

theorem places_onGrid_le (step count : Nat) : (Decimal.onGrid step count).places ≤ unitPlaces := by
  unfold Decimal.onGrid
  split
  · exact Nat.zero_le _
  · exact Nat.sub_le _ _

theorem places_shortest_le (b : Nat) : (Decimal.shortest b).places ≤ unitPlaces := by
  have hsearch : ∀ step, (Decimal.search b step).places ≤ unitPlaces := by
    intro step
    induction step with
    | zero => exact places_onGrid_le _ _
    | succ step ih =>
      rw [Decimal.search]
      split
      · next d hd =>
        simp only [Decimal.onGrid?] at hd
        split at hd
        · cases hd
          exact places_onGrid_le _ _
        · split at hd
          · cases hd
            exact places_onGrid_le _ _
          · cases hd
      · exact ih
  unfold Decimal.shortest
  split
  · exact Nat.zero_le _
  · exact hsearch _

/-! ## Reading the parts -/

theorem takeWhile_append_point {whole fraction : List Char} (h : ∀ c ∈ whole, c.isDigit = true) :
    (whole ++ point fraction).takeWhile Char.isDigit = whole ∧
      (whole ++ point fraction).dropWhile Char.isDigit = point fraction := by
  rw [List.takeWhile_append_of_pos h, List.dropWhile_append_of_pos h]
  unfold point
  split
  · simp
  · have hpoint : ('.').isDigit = false := by decide
    simp [hpoint]

theorem splitFraction_point {fraction : List Char} (h : ∀ c ∈ fraction, c.isDigit = true) :
    Numeral.splitFraction (point fraction) = (fraction, []) := by
  unfold point
  split
  · next hnil =>
    subst hnil
    rfl
  · rw [Numeral.splitFraction, List.takeWhile_eq_self_iff.2 h, List.dropWhile_eq_nil_iff.2 h]

theorem splitSign_of_digit {c : Char} {cs : List Char} (h : c.isDigit = true) :
    splitSign (c :: cs) = (false, c :: cs) := by
  unfold splitSign
  split <;> simp_all

theorem Decimal.Written.ofChars? {d : Decimal} {whole fraction : List Char}
    (h : d.Written whole fraction) (negative : Bool) :
    Numeral.ofChars? (if negative then '-' :: d.chars else d.chars) =
      some ⟨negative, whole, fraction, 0⟩ := by
  have hwhole : ∀ c ∈ whole, c.isDigit = true := fun c hc => h.digits c (List.mem_append_left _ hc)
  have hfraction : ∀ c ∈ fraction, c.isDigit = true :=
    fun c hc => h.digits c (List.mem_append_right _ hc)
  have hsign : splitSign (if negative then '-' :: d.chars else d.chars) = (negative, d.chars) := by
    cases negative with
    | true => rfl
    | false =>
      obtain ⟨c, cs, rfl⟩ := List.exists_cons_of_ne_nil h.ne_nil
      rw [if_neg Bool.false_ne_true, h.chars, List.cons_append]
      exact splitSign_of_digit (hwhole c List.mem_cons_self)
  obtain ⟨htake, hdrop⟩ := @takeWhile_append_point whole fraction hwhole
  unfold Numeral.ofChars?
  rw [h.chars] at hsign ⊢
  simp only [hsign, htake, hdrop, splitFraction_point hfraction]
  rw [if_neg fun hnil => h.ne_nil hnil.1]
  rfl

theorem nearest_zero {den : Nat} (h : 0 < den) : nearest 0 den = 0 := by
  have hround : roundDiv 0 den = 0 := by simp [roundDiv, h]
  simp [nearest, hround]

theorem Decimal.Written.magnitude {d : Decimal} {whole fraction : List Char}
    (h : d.Written whole fraction) (hplaces : d.places ≤ unitPlaces) (negative : Bool) :
    Numeral.magnitude ⟨negative, whole, fraction, 0⟩ = d.nearest := by
  have hpos : 0 < Nat.pow 10 d.places := Nat.pow_pos (by decide)
  have hunit : unitPlaces < Numeral.reach := by decide
  simp only [Numeral.magnitude, h.value, h.places]
  split
  · next hzero => rw [Decimal.nearest, hzero, nearest_zero hpos]
  · rw [if_neg (by omega), if_neg (by omega)]
    have hup : ((0 : Int) - d.places).toNat = 0 := by omega
    have hdown : (-((0 : Int) - d.places)).toNat = d.places := by omega
    rw [hup, hdown]
    exact congrArg (Number.nearest · _) (Nat.mul_one _)

/-! ## Doubles as text -/

theorem nearest_le (num den : Nat) : nearest num den ≤ infinityBits := Nat.min_le_left _ _

theorem Numeral.magnitude_le (n : Numeral) : n.magnitude ≤ infinityBits := by
  unfold Numeral.magnitude
  simp only []
  split
  · exact Nat.zero_le _
  · split
    · exact Nat.le_refl _
    · split
      · exact Nat.zero_le _
      · exact nearest_le _ _

/-- What is read as a number is one. -/
theorem Numeral.magnitudeBits_toFloat_le (n : Numeral) : magnitudeBits n.toFloat ≤ infinityBits := by
  rw [Numeral.toFloat, magnitudeBits_ofSignBits n.magnitude_le]
  exact n.magnitude_le

theorem chars_of_infinite {x : Float} (h : magnitudeBits x = infinityBits) :
    chars x = if isNegative x then ['-', 'i', 'n', 'f'] else ['i', 'n', 'f'] := by
  unfold chars
  simp [h]

theorem chars_of_finite {x : Float} (h : magnitudeBits x < infinityBits) :
    chars x = if isNegative x then '-' :: (Decimal.shortest (magnitudeBits x)).chars
      else (Decimal.shortest (magnitudeBits x)).chars := by
  unfold chars
  simp only [if_neg (Nat.not_lt.2 (Nat.le_of_lt h)), if_neg (Nat.ne_of_lt h)]

/-- The text of a finite double is a numeral and reads back to that double. -/
theorem ofChars?_chars {x : Float} (h : magnitudeBits x < infinityBits) :
    ∃ n, Numeral.ofChars? (chars x) = some n ∧ n.toFloat = x := by
  obtain ⟨whole, fraction, hwritten⟩ := (Decimal.shortest (magnitudeBits x)).exists_written
  refine ⟨⟨isNegative x, whole, fraction, 0⟩, ?_, ?_⟩
  · rw [chars_of_finite h]
    exact hwritten.ofChars? (isNegative x)
  · rw [Numeral.toFloat, hwritten.magnitude (places_shortest_le _), Decimal.nearest_shortest h]
    exact ofSignBits_self x

/-- Finite doubles are written with digits, a point and a minus sign. -/
theorem mem_chars_of_finite {x : Float} (h : magnitudeBits x < infinityBits) {c : Char}
    (hc : c ∈ chars x) : c.isDigit = true ∨ c = '.' ∨ c = '-' := by
  obtain ⟨whole, fraction, hwritten⟩ := (Decimal.shortest (magnitudeBits x)).exists_written
  have hunsigned : ∀ c ∈ (Decimal.shortest (magnitudeBits x)).chars, c.isDigit = true ∨ c = '.' := by
    intro c hc
    rw [hwritten.chars, point] at hc
    rcases List.mem_append.1 hc with hc | hc
    · exact .inl (hwritten.digits c (List.mem_append_left _ hc))
    · split at hc
      · cases hc
      · rcases List.mem_cons.1 hc with rfl | hc
        · exact .inr rfl
        · exact .inl (hwritten.digits c (List.mem_append_right _ hc))
  rw [chars_of_finite h] at hc
  split at hc
  · rcases List.mem_cons.1 hc with rfl | hc
    · exact .inr (.inr rfl)
    · exact (hunsigned c hc).imp_right .inl
  · exact (hunsigned c hc).imp_right .inl

end ScopeLisp.Number

/-!
# Ranges of characters

Classes of characters as lists of ranges of code points. `covers_iff` says what a list stands for.
-/

namespace ScopeLisp.Text

/-- Whether `c` lies in one of the ranges, which include both of their ends. -/
def covers (ranges : List (Nat × Nat)) (c : Char) : Bool :=
  ranges.any fun r => r.1 ≤ c.toNat && c.toNat ≤ r.2

theorem covers_iff {ranges : List (Nat × Nat)} {c : Char} :
    covers ranges c = true ↔ ∃ r ∈ ranges, r.1 ≤ c.toNat ∧ c.toNat ≤ r.2 := by
  simp only [covers, List.any_eq_true, Bool.and_eq_true, decide_eq_true_eq]

end ScopeLisp.Text

/-!
# Intervals of code points

Properties of characters are given by tables of intervals. A table is ascending, so a search stops
at the first interval that begins past the code point.

## Main definitions

* `Text.CodeRange` — an interval of code points.
* `Text.CodeRange.covers` — membership of a code point in an ascending table.
-/

namespace SearchQuery.Text

/-- The code points from `first` to `last`, both included. -/
structure CodeRange where
  first : Nat
  last : Nat

namespace CodeRange

/-- Whether an interval of the ascending table `ranges` holds the code point `n`. -/
def covers : (ranges : List CodeRange) → (n : Nat) → Bool
  | [], _ => false
  | r :: ranges, n => r.first ≤ n && (n ≤ r.last || covers ranges n)

def Ascending (ranges : List CodeRange) : Prop :=
  ranges.Pairwise fun r s => r.first ≤ s.first

@[simp] theorem covers_nil (n : Nat) : covers [] n = false := rfl

/-- A code point before the first interval is in none. -/
theorem covers_of_lt {r : CodeRange} {ranges : List CodeRange} {n : Nat} (h : n < r.first) :
    covers (r :: ranges) n = false := by
  simp [covers, Nat.not_le.2 h]

/-- Stopping early loses nothing: the search finds exactly the intervals that hold `n`. -/
theorem covers_iff {ranges : List CodeRange} (h : Ascending ranges) {n : Nat} :
    covers ranges n ↔ ∃ r ∈ ranges, r.first ≤ n ∧ n ≤ r.last := by
  induction ranges with
  | nil => simp
  | cons r ranges ih =>
    obtain ⟨hr, hrs⟩ := List.pairwise_cons.1 h
    simp only [covers, Bool.and_eq_true, Bool.or_eq_true, decide_eq_true_eq, ih hrs,
      List.mem_cons, exists_eq_or_imp]
    grind

end CodeRange

end SearchQuery.Text

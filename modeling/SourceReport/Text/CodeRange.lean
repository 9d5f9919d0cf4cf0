/-!
# Ranges of code points

A set of code points as a list of inclusive ranges. The list need not be sorted; the first range
that holds the code point settles the question.
-/

namespace SourceReport
namespace CodeRange

def covers (ranges : List (Nat × Nat)) (code : Nat) : Bool :=
  ranges.any fun range => range.1 ≤ code && code ≤ range.2

theorem covers_eq_true_iff (ranges : List (Nat × Nat)) (code : Nat) :
    covers ranges code = true ↔ ∃ range ∈ ranges, range.1 ≤ code ∧ code ≤ range.2 := by
  simp [covers]

end CodeRange
end SourceReport

import SourceReport.Failure

/-!
# Raised failures

A failure is raised with its message, unless a number in the message is too long to be written. So
what is raised for a failure is known from its numbers.
-/

namespace SourceReport

/-!
# Numbers that can be written
-/

namespace Digits

theorem isWritable_iff {number : Int} :
    isWritable number = true ↔ number.natAbs < Nat.pow 10 limit := by
  have positive : 0 < limit := by decide
  rw [isWritable, decide_eq_true_eq]
  generalize limit = most at positive ⊢
  exact Nat.length_toDigits_le_iff (by decide) positive

/-- Between two numbers that can be written all can. -/
theorem isWritable_of_between {low high number : Int} (lower : isWritable low = true)
    (upper : isWritable high = true) (above : low ≤ number) (below : number ≤ high) :
    isWritable number = true := by
  rw [isWritable_iff] at lower upper ⊢
  generalize Nat.pow 10 limit = bound at lower upper ⊢
  omega

theorem lt_pow_limit {n : Nat} (small : n < 10) : n < Nat.pow 10 limit := by
  have positive : 0 < limit := by decide
  generalize limit = most at positive ⊢
  calc n
    _ < 10 ^ 1 := small
    _ ≤ 10 ^ most := Nat.pow_le_pow_right (by decide) positive

/-- The least number that has too many digits. -/
theorem isWritable_pow_limit : isWritable (Nat.pow 10 limit) = false := by
  rw [Bool.eq_false_iff, ne_eq, isWritable_iff, Int.natAbs_natCast]
  exact Nat.lt_irrefl _

end Digits

namespace Failure

variable {failure : Failure}

theorem raised_of_isWritable (written : failure.isWritable = true) :
    failure.raised = .failure failure :=
  if_pos written

theorem raised_of_not_isWritable (long : failure.isWritable = false) :
    failure.raised = .fault .longNumber := by
  rw [raised, long]
  rfl

/-- A failure is raised as it is, or not at all. -/
theorem eq_of_raised {rejected : Failure} (same : rejected.raised = .failure failure) :
    rejected = failure := by
  rw [raised] at same
  split at same
  · exact Raised.failure.inj same
  · cases same

/-- A line behind the last one can be told about if the line itself can. -/
theorem isWritable_lineTooLarge {given max : Nat} (within : max ≤ given) :
    (lineTooLarge given max).isWritable = Digits.isWritable given := by
  have below (written : Digits.isWritable given = true) : Digits.isWritable max = true :=
    Digits.isWritable_of_between (by decide : Digits.isWritable 0 = true) written
      (Int.natCast_nonneg max) (Int.ofNat_le.mpr within)
  rw [isWritable, numbers, List.all_cons, List.all_cons, List.all_nil, Bool.and_true]
  cases written : Digits.isWritable given with
  | false => rfl
  | true => exact below written

end Failure

end SourceReport

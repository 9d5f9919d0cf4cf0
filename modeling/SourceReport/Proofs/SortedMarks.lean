import Mathlib.Data.Prod.Lex
import SourceReport.Proofs.MarkOrder

/-!
# Sorted marks

Marks that are inserted one after another end up sorted by start and stop, and of those with the
same range the newest comes first. So their list is the stable sort of the reversed sequence.
-/

namespace SourceReport
namespace SingleMark

/-- The order of ranges: by start, and then by stop. -/
def isUpTo (a b : SingleMark) : Bool :=
  toLex a.range ≤ toLex b.range

theorem isUpTo_iff_le (a b : SingleMark) :
    a.isUpTo b = true ↔ toLex a.range ≤ toLex b.range := by
  rw [isUpTo, decide_eq_true_eq]

/-- What the scan for the place of a mark looks for is the order of ranges. -/
theorem isUpTo_iff_follows (a b : SingleMark) :
    a.isUpTo b = true ↔ b.follows a.start a.stop = true := by
  rw [isUpTo_iff_le, Prod.Lex.toLex_le_toLex, follows_iff, eq_comm (a := b.start)]
  rfl

theorem isUpTo_trans (a b c : SingleMark) (first : a.isUpTo b = true)
    (second : b.isUpTo c = true) : a.isUpTo c = true := by
  rw [isUpTo_iff_le] at first second ⊢
  exact le_trans first second

theorem isUpTo_total (a b : SingleMark) : (a.isUpTo b || b.isUpTo a) = true := by
  rw [Bool.or_eq_true, isUpTo_iff_le, isUpTo_iff_le]
  exact le_total (toLex a.range) (toLex b.range)

theorem isSorted_iff (marks : List SingleMark) :
    IsSorted marks ↔ marks.Pairwise fun a b => a.isUpTo b = true := by
  simp only [IsSorted, isUpTo_iff_follows]

/-!
# Stable sorts
-/

theorem isSorted_mergeSort (marks : List SingleMark) : IsSorted (marks.mergeSort isUpTo) := by
  rw [isSorted_iff]
  exact List.pairwise_mergeSort isUpTo_trans isUpTo_total marks

/-- A stable sort keeps the order of the marks with each range. -/
theorem withRange_mergeSort (range : Int × Int) (marks : List SingleMark) :
    withRange range (marks.mergeSort isUpTo) = withRange range marks := by
  have tied : (withRange range marks).Pairwise fun a b => a.isUpTo b = true := by
    rw [List.pairwise_iff_forall_sublist]
    intro a b pair
    have first := (mem_withRange.mp (pair.subset (List.mem_cons_self))).2
    have second := (mem_withRange.mp (pair.subset (List.mem_cons_of_mem _ List.mem_cons_self))).2
    rw [isUpTo_iff_le, first, second]
  have kept : (withRange range marks).Sublist (marks.mergeSort isUpTo) :=
    List.sublist_mergeSort isUpTo_trans isUpTo_total tied List.filter_sublist
  have both : (withRange range marks).Sublist (withRange range (marks.mergeSort isUpTo)) := by
    have again := kept.filter fun mark => mark.range = range
    rw [withRange, List.filter_filter] at again
    simp only [Bool.and_self] at again
    exact again
  have sameLength : (withRange range marks).length =
      (withRange range (marks.mergeSort isUpTo)).length :=
    ((List.mergeSort_perm marks isUpTo).filter _).length_eq.symm
  exact (both.eq_of_length sameLength).symm

/-!
# Insertions in sequence
-/

/-- Marks that are inserted one after another are the same marks, sorted by range, those with one
range in the reverse order of insertion: the stable sort of the reversed sequence. -/
theorem insertAll_exact (marks : List SingleMark) :
    (insertAll marks).Perm marks ∧
      ((insertAll marks).Pairwise fun a b => toLex a.range ≤ toLex b.range) ∧
      (∀ range : Int × Int,
        (insertAll marks).filter (fun mark => mark.range = range) =
          (marks.filter fun mark => mark.range = range).reverse) ∧
      insertAll marks =
        marks.reverse.mergeSort fun a b => decide (toLex a.range ≤ toLex b.range) := by
  have sorted := isSorted_insertAll marks
  refine ⟨perm_insertAll marks, ?_, fun range => withRange_insertAll range marks, ?_⟩
  · rw [isSorted_iff] at sorted
    exact sorted.imp fun {a b} before => (isUpTo_iff_le a b).mp before
  · apply eq_of_withRange sorted (isSorted_mergeSort marks.reverse)
    intro range
    rw [withRange_insertAll, withRange_mergeSort, withRange, withRange, List.filter_reverse]

example :
    insertAll [⟨.primary, 4, 6, "first"⟩, ⟨.secondary, 4, 5, ""⟩, ⟨.primary, 4, 6, "second"⟩] =
      [⟨.secondary, 4, 5, ""⟩, ⟨.primary, 4, 6, "second"⟩, ⟨.primary, 4, 6, "first"⟩] := by
  decide

end SingleMark
end SourceReport

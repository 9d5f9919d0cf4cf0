import SourceReport.Proofs.LineMessages

/-!
# The order of marks

The marks of a line ascend by range, and of those with the same range the newest comes first. This
determines their list: inserted in another order, they end up in the same one as long as those with
the same range keep theirs.
-/

namespace SourceReport
namespace SingleMark

theorem follows_iff (mark : SingleMark) (start stop : Int) :
    mark.follows start stop = true ↔
      start < mark.start ∨ (mark.start = start ∧ stop ≤ mark.stop) := by
  rw [follows, Bool.or_eq_true, Bool.and_eq_true, decide_eq_true_eq, decide_eq_true_eq,
    decide_eq_true_eq]

theorem follows_total {a b : SingleMark} (h : ¬ b.follows a.start a.stop = true) :
    a.follows b.start b.stop = true := by
  rw [follows_iff] at h ⊢
  omega

/-- The marks ascend by range. -/
def IsSorted (marks : List SingleMark) : Prop :=
  marks.Pairwise fun a b => b.follows a.start a.stop = true

/-- The marks with a range, in order. -/
def withRange (range : Int × Int) (marks : List SingleMark) : List SingleMark :=
  marks.filter fun mark => mark.range = range

theorem mem_withRange {range : Int × Int} {marks : List SingleMark} {mark : SingleMark} :
    mark ∈ withRange range marks ↔ mark ∈ marks ∧ mark.range = range := by
  rw [withRange, List.mem_filter, decide_eq_true_eq]

theorem mem_withRange_self {marks : List SingleMark} {mark : SingleMark} (h : mark ∈ marks) :
    mark ∈ withRange mark.range marks :=
  mem_withRange.mpr ⟨h, rfl⟩

theorem withRange_cons (range : Int × Int) (mark : SingleMark) (rest : List SingleMark) :
    withRange range (mark :: rest) =
      if mark.range = range then mark :: withRange range rest else withRange range rest := by
  rw [withRange, List.filter_cons]
  simp only [decide_eq_true_eq]
  rfl

/-!
# One insertion
-/

theorem insert_cons (head mark : SingleMark) (rest : List SingleMark) :
    insert (head :: rest) mark =
      if head.follows mark.start mark.stop = true then mark :: head :: rest
      else head :: insert rest mark := by
  rw [insert, insertionIndex, List.findIdx_cons]
  cases head.follows mark.start mark.stop with
  | true => rfl
  | false => rfl

theorem isSorted_insert {marks : List SingleMark} (sorted : IsSorted marks) (mark : SingleMark) :
    IsSorted (insert marks mark) := by
  induction marks with
  | nil => exact List.pairwise_singleton _ mark
  | cons head rest ih =>
      rcases List.pairwise_cons.mp sorted with ⟨above, others⟩
      rw [insert_cons]
      split
      · rename_i before
        refine List.pairwise_cons.mpr ⟨?_, sorted⟩
        intro next member
        rcases List.mem_cons.mp member with this | later
        · rw [this]
          exact before
        · have higher := above next later
          rw [follows_iff] at before higher ⊢
          omega
      · rename_i after
        refine List.pairwise_cons.mpr ⟨?_, ih others⟩
        intro next member
        rcases List.mem_cons.mp ((perm_insert rest mark).mem_iff.mp member) with this | later
        · rw [this]
          exact follows_total after
        · exact above next later

/-- A mark goes in front of all marks with its range. -/
theorem withRange_insert (range : Int × Int) (marks : List SingleMark) (mark : SingleMark) :
    withRange range (insert marks mark) = withRange range (mark :: marks) := by
  induction marks with
  | nil => rfl
  | cons head rest ih =>
      rw [insert_cons]
      split
      · rfl
      · rename_i after
        rw [withRange_cons, ih, withRange_cons, withRange_cons, withRange_cons]
        by_cases this : mark.range = range
        · -- The head stays in front of the new mark, so its range is another one.
          have other : ¬ head.range = range := by
            intro same
            rw [← this, SingleMark.range, SingleMark.range, Prod.mk.injEq] at same
            rw [follows_iff] at after
            omega
          simp only [if_pos this, if_neg other]
        · simp only [if_neg this]

/-!
# All insertions
-/

theorem isSorted_insertMany {inserted : List SingleMark} (sorted : IsSorted inserted)
    (marks : List SingleMark) : IsSorted (marks.foldl insert inserted) := by
  induction marks generalizing inserted with
  | nil => exact sorted
  | cons mark rest ih => exact ih (isSorted_insert sorted mark)

theorem isSorted_insertAll (marks : List SingleMark) : IsSorted (insertAll marks) :=
  isSorted_insertMany List.Pairwise.nil marks

theorem withRange_insertMany (range : Int × Int) (inserted marks : List SingleMark) :
    withRange range (marks.foldl insert inserted) =
      (withRange range marks).reverse ++ withRange range inserted := by
  induction marks generalizing inserted with
  | nil => rfl
  | cons mark rest ih =>
      rw [List.foldl_cons, ih, withRange_insert, withRange_cons, withRange_cons]
      split
      · rw [List.reverse_cons, List.append_assoc, List.singleton_append]
      · rfl

theorem withRange_insertAll (range : Int × Int) (marks : List SingleMark) :
    withRange range (insertAll marks) = (withRange range marks).reverse := by
  rw [insertAll, withRange_insertMany]
  exact List.append_nil _

/-!
# Equal orders
-/

/-- Sorted marks are determined by those with each range. -/
theorem eq_of_withRange {left right : List SingleMark} (sortedLeft : IsSorted left)
    (sortedRight : IsSorted right)
    (h : ∀ range, withRange range left = withRange range right) : left = right := by
  induction left generalizing right with
  | nil =>
      cases right with
      | nil => rfl
      | cons mark rest =>
          have member := mem_withRange_self (List.mem_cons_self (a := mark) (l := rest))
          rw [← h mark.range] at member
          cases member
  | cons mark rest ih =>
      have member := mem_withRange_self (List.mem_cons_self (a := mark) (l := rest))
      rw [h mark.range] at member
      cases right with
      | nil => cases member
      | cons head others =>
          rcases List.pairwise_cons.mp sortedLeft with ⟨aboveMark, sortedRest⟩
          rcases List.pairwise_cons.mp sortedRight with ⟨aboveHead, sortedOthers⟩
          have headListed := mem_withRange_self (List.mem_cons_self (a := head) (l := others))
          rw [← h head.range] at headListed
          -- Each of the two first marks stands in the other list, so neither range is the lower.
          have same : mark = head := by
            have heads : mark.range = head.range := by
              rcases List.mem_cons.mp (mem_withRange.mp member).1 with this | later
              · rw [this]
              · rcases List.mem_cons.mp (mem_withRange.mp headListed).1 with this | listed
                · rw [this]
                · have below := aboveHead mark later
                  have above := aboveMark head listed
                  rw [follows_iff] at below above
                  rw [SingleMark.range, SingleMark.range, Prod.mk.injEq]
                  omega
            have firsts := h mark.range
            rw [withRange_cons, withRange_cons, if_pos rfl, if_pos heads.symm] at firsts
            exact (List.cons.inj firsts).1
          subst same
          have tails : ∀ range, withRange range rest = withRange range others := by
            intro range
            have both := h range
            rw [withRange_cons, withRange_cons] at both
            split at both
            · exact (List.cons.inj both).2
            · exact both
          rw [ih sortedRest sortedOthers tails]

/-- Marks may be inserted in any order that keeps the one of marks with the same range. -/
theorem insertAll_eq_of_withRange {left right : List SingleMark}
    (h : ∀ range, withRange range left = withRange range right) :
    insertAll left = insertAll right := by
  apply eq_of_withRange (isSorted_insertAll left) (isSorted_insertAll right)
  intro range
  rw [withRange_insertAll, withRange_insertAll, h range]

end SingleMark
end SourceReport

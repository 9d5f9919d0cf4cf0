import SourceReport.Proofs.Anchors
import SourceReport.Proofs.MarkOrder

/-!
# Labels of one file in another order

The columns of the brackets follow the order of the labels over several lines, and labels that are
drawn under the same range stand in the reverse of their order. Nothing else in a file depends on
the order of its labels.
-/

namespace SourceReport

/-- The range under which a label on one line is drawn: at least one byte wide. -/
def Label.displayed (label : Label) : Int × Int :=
  (label.start, max (label.stop : Int) (label.start + 1))

namespace FileRecord

/-- The labels on one line that are drawn under the given range, in order. -/
def tied (record : FileRecord) (labels : List Label) (range : Int × Int) : List Label :=
  labels.filter fun label => record.isSingle label && label.displayed = range

/-- The labels over several lines stand in the same order, and so do labels on one line that are
drawn under the same range. -/
structure KeepsOrder (record : FileRecord) (labels others : List Label) : Prop where
  brackets : record.bracketed others = record.bracketed labels
  ties : ∀ label ∈ labels, record.tied others label.displayed = record.tied labels label.displayed

instance (record : FileRecord) (labels others : List Label) :
    Decidable (record.KeepsOrder labels others) :=
  decidable_of_iff
    (record.bracketed others = record.bracketed labels ∧ ∀ label ∈ labels,
      record.tied others label.displayed = record.tied labels label.displayed)
    ⟨fun both => ⟨both.1, both.2⟩, fun h => ⟨h.brackets, h.ties⟩⟩

variable {record : FileRecord} {options : Options} {first : Int} {labels others : List Label}

theorem tied_eq_nil {range : Int × Int} (h : ¬ ∃ label ∈ labels, label.displayed = range) :
    record.tied labels range = [] := by
  rw [tied, List.filter_eq_nil_iff]
  intro label listed drawn
  rw [Bool.and_eq_true, decide_eq_true_eq] at drawn
  exact h ⟨label, listed, drawn.2⟩

theorem KeepsOrder.tied_eq (h : record.KeepsOrder labels others) (perm : others.Perm labels)
    (range : Int × Int) : record.tied others range = record.tied labels range := by
  by_cases drawn : ∃ label ∈ labels, label.displayed = range
  · rcases drawn with ⟨label, listed, rfl⟩
    exact h.ties label listed
  · have undrawn : ¬ ∃ label ∈ others, label.displayed = range := by
      intro again
      rcases again with ⟨label, listed, this⟩
      exact drawn ⟨label, perm.mem_iff.mp listed, this⟩
    rw [tied_eq_nil drawn, tied_eq_nil undrawn]

/-!
# The lines of a file
-/

theorem touchedLines_eq_of_perm (perm : others.Perm labels) :
    Plan.touchedLines (others.map (record.placement options first)) =
      Plan.touchedLines (labels.map (record.placement options first)) := by
  apply Plan.eq_of_mem_index_iff (Plan.pairwise_touchedLines _) (Plan.pairwise_touchedLines _)
  · intro span
    exact Plan.eq_span_of_mem_touchedLines
  · intro span
    exact Plan.eq_span_of_mem_touchedLines
  · intro i
    rw [Plan.mem_index_touchedLines, Plan.mem_index_touchedLines]
    simp only [perm.mem_iff]

/-!
# The marks of a line
-/

theorem range_singleMark (label : Label) (i : Nat) (line : record.lineAt label.start = i)
    (range : Int × Int) :
    (record.placement options first label).singleMark.range = range ↔
      label.displayed = (range.1 + record.startOf i, range.2 + record.startOf i) := by
  have start : (record.placement options first label).first.range.1 = record.startOf i := by
    rw [← line]
    rfl
  have whose : (record.placement options first label).label = label := rfl
  simp only [Placement.singleMark, SingleMark.range, start, whose, Label.displayed, Prod.ext_iff]
  omega

/-- The marks of a line with one range are those of the labels that are drawn under it. -/
theorem withRange_marks (labels : List Label) (i : Nat) (range : Int × Int) :
    SingleMark.withRange range
        (((labels.map (record.placement options first)).filter fun placement =>
          placement.isSingle && placement.first.index = i).map Placement.singleMark) =
      ((record.tied labels (range.1 + record.startOf i, range.2 + record.startOf i)).filter
        fun label => record.lineAt label.start = i).map
          fun label => (record.placement options first label).singleMark := by
  rw [SingleMark.withRange, List.filter_map, List.filter_map, List.filter_map, List.map_map,
    List.filter_filter, tied, List.filter_filter]
  congr 1
  apply List.filter_congr
  intro label _
  have same : (record.placement options first label).isSingle = record.isSingle label := rfl
  simp only [Function.comp_apply, same, first_placement]
  by_cases line : record.lineAt label.start = i
  · simp only [line, range_singleMark label i line range, decide_true, Bool.true_and,
      Bool.and_comm]
  · simp only [line, decide_false, Bool.and_false, Bool.false_and]

theorem singleMarks_eq_of_perm (perm : others.Perm labels) (h : record.KeepsOrder labels others)
    (i : Nat) :
    Plan.singleMarks (others.map (record.placement options first)) i =
      Plan.singleMarks (labels.map (record.placement options first)) i := by
  apply SingleMark.insertAll_eq_of_withRange
  intro range
  rw [withRange_marks, withRange_marks, h.tied_eq perm]

/-!
# One file
-/

theorem plannedLine_eq_of_perm (perm : others.Perm labels) (h : record.KeepsOrder labels others)
    (lookup : Lookup) (line : LineSpan) :
    Plan.plannedLine lookup options (others.map (record.placement options first)) line =
      Plan.plannedLine lookup options (labels.map (record.placement options first)) line := by
  have shown := (perm.map (record.placement options first)).any_eq
    (f := fun placement => placement.shows options line.index)
  rw [Plan.plannedLine, Plan.plannedLine, Plan.bracketEntries, Plan.bracketEntries,
    bracketed_placement, bracketed_placement, h.brackets, singleMarks_eq_of_perm perm h, shown]

theorem location_of_mem {placement : Placement}
    (h : placement ∈ labels.map (record.placement options first)) :
    placement.location = record.locationAt first placement.label.start := by
  rcases List.mem_map.mp h with ⟨label, _, rfl⟩
  rfl

theorem plannedFile_eq_of_perm (options : Options) (first : Int) (perm : others.Perm labels)
    (h : record.KeepsOrder labels others) (lookup : Lookup) {head other : Label}
    (listed : head ∈ labels) (known : other ∈ others) :
    Plan.plannedFile lookup options (record.placement options first other)
        (others.map (record.placement options first)) =
      { Plan.plannedFile lookup options (record.placement options first head)
          (labels.map (record.placement options first)) with id := other.file } := by
  have lines : Plan.plannedLine lookup options (others.map (record.placement options first)) =
      Plan.plannedLine lookup options (labels.map (record.placement options first)) :=
    funext (plannedLine_eq_of_perm perm h lookup)
  have member := List.mem_map_of_mem (f := record.placement options first) listed
  have again := List.mem_map_of_mem (f := record.placement options first) known
  have anchors := Placement.best_unique again member fun _ =>
    (perm.map (record.placement options first)).mem_iff
  have place := location_of_mem (Placement.best_mem_of_mem member)
  have places := location_of_mem (Placement.best_mem_of_mem again)
  rw [anchors.2, ← place] at places
  simp only [Placement.best] at anchors places
  rw [Plan.plannedFile, Plan.plannedFile, bracketed_placement, bracketed_placement, h.brackets,
    touchedLines_eq_of_perm perm, lines]
  simp only [anchors, places]
  rfl

end FileRecord
end SourceReport

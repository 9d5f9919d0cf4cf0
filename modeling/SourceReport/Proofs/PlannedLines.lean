import Mathlib.Data.List.Sort
import SourceReport.Proofs.Planning

/-!
# Lines of a planned file

The planned lines of a file ascend. A line is planned if some label touches it with its context, and
it is shown if some label shows it.
-/

namespace SourceReport
namespace FileRecord

variable (record : FileRecord) (options : Options)

/-- The label covers the line, or has it among its context lines. -/
def Touches (label : Label) (i : Nat) : Prop :=
  record.lineAt label.start ≤ i + options.before ∧
    i ≤ record.lineAt label.stop + options.after ∧ i < record.lineCount

/-- The label begins or ends on the line, or the line is one of those that the options ask for:
inside the label close to either end, or close before its first or after its last line. -/
def Shows (label : Label) (i : Nat) : Prop :=
  i = record.lineAt label.start ∨ i = record.lineAt label.stop ∨
    (record.lineAt label.start < i ∧ i < record.lineAt label.stop ∧
      (i - record.lineAt label.start ≤ options.startContext ∨
        record.lineAt label.stop - i ≤ options.endContext)) ∨
    (record.lineAt label.start ≤ i + options.before ∧ i < record.lineAt label.start) ∨
    (record.lineAt label.stop < i ∧ i ≤ record.lineAt label.stop + options.after ∧
      i < record.lineCount)

theorem lineAt_start_le_stop (label : Label) :
    record.lineAt label.start ≤ record.lineAt label.stop :=
  record.lineAt_mono label.start_le_stop

variable {record options} {first : Int} {label : Label}

theorem Shows.touches {i : Nat} (h : record.Shows options label i) :
    record.Touches options label i := by
  have order := lineAt_start_le_stop record label
  have last := record.lineAt_lt_lineCount label.stop
  unfold Shows at h
  unfold Touches
  omega

/-!
# What a placement asks of a line
-/

theorem mem_index_before {i : Nat} :
    i ∈ (record.placement options first label).before.map (·.index) ↔
      record.lineAt label.start ≤ i + options.before ∧ i < record.lineAt label.start := by
  rw [placement, List.map_reverse, List.mem_reverse, map_index_span, List.mem_range'_1]
  omega

theorem mem_index_middle {i : Nat} :
    i ∈ (record.placement options first label).middle.map (·.index) ↔
      record.lineAt label.start < i ∧ i < record.lineAt label.stop := by
  rw [placement, map_index_span, List.mem_range'_1]
  omega

theorem mem_index_after {i : Nat} :
    i ∈ (record.placement options first label).after.map (·.index) ↔
      record.lineAt label.stop < i ∧ i ≤ record.lineAt label.stop + options.after ∧
        i < record.lineCount := by
  have last := record.lineAt_lt_lineCount label.stop
  rw [placement, map_index_span, List.mem_range'_1]
  omega

theorem mem_index_lines {i : Nat} :
    i ∈ (record.placement options first label).lines.map (·.index) ↔
      record.Touches options label i := by
  have order := lineAt_start_le_stop record label
  have last := record.lineAt_lt_lineCount label.stop
  simp only [Placement.lines, List.map_append, List.map_cons, List.mem_append, List.mem_cons,
    mem_index_before, mem_index_middle, mem_index_after, first_placement, last_placement, Touches]
  omega

theorem eq_span_of_mem_lines {span : LineSpan}
    (h : span ∈ (record.placement options first label).lines) : span = record.span span.index := by
  have all : ∀ list : List Nat, ∀ x ∈ list.map record.span, x = record.span x.index := by
    intro list x member
    rcases List.mem_map.mp member with ⟨i, _, rfl⟩
    rfl
  simp only [Placement.lines, List.mem_append, List.mem_cons] at h
  rcases h with (before | this | middle) | this | after
  · exact all _ _ (List.mem_reverse.mp before)
  · rw [this]
    rfl
  · exact all _ _ middle
  · rw [this]
    rfl
  · exact all _ _ after

theorem any_index_iff (spans : List LineSpan) (i : Nat) :
    (spans.any fun span => span.index = i) = true ↔ i ∈ spans.map (·.index) := by
  simp

theorem shows_placement (i : Nat) :
    (record.placement options first label).shows options i = true ↔
      record.Shows options label i := by
  simp only [Placement.shows, Bool.or_eq_true, Bool.and_eq_true, decide_eq_true_eq,
    any_index_iff, or_assoc, and_assoc]
  rw [mem_index_before, mem_index_after, first_placement, last_placement, Shows]

end FileRecord

namespace Plan

/-!
# Touched lines
-/

theorem mem_index_insertLine (line : LineSpan) (lines : List LineSpan) (i : Nat) :
    i ∈ (insertLine line lines).map (·.index) ↔
      i = line.index ∨ i ∈ lines.map (·.index) := by
  induction lines with
  | nil => simp [insertLine]
  | cons head rest ih =>
      rw [insertLine]
      split
      · rw [List.map_cons, List.mem_cons]
      · split
        · rename_i same
          rw [List.map_cons, List.mem_cons, same]
          constructor
          · exact Or.inr
          · rintro (this | listed)
            · exact Or.inl this
            · exact listed
        · rw [List.map_cons, List.mem_cons, ih, List.map_cons, List.mem_cons]
          exact or_left_comm

theorem mem_of_mem_insertLine {line other : LineSpan} {lines : List LineSpan}
    (h : other ∈ insertLine line lines) : other = line ∨ other ∈ lines := by
  induction lines with
  | nil => exact Or.inl (List.mem_singleton.mp h)
  | cons head rest ih =>
      rw [insertLine] at h
      split at h
      · exact List.mem_cons.mp h
      · split at h
        · exact Or.inr h
        · rcases List.mem_cons.mp h with this | later
          · exact Or.inr (List.mem_cons.mpr (Or.inl this))
          · rcases ih later with this | listed
            · exact Or.inl this
            · exact Or.inr (List.mem_cons_of_mem head listed)

theorem pairwise_insertLine {lines : List LineSpan}
    (sorted : lines.Pairwise fun a b => a.index < b.index) (line : LineSpan) :
    (insertLine line lines).Pairwise fun a b => a.index < b.index := by
  induction lines with
  | nil => exact List.pairwise_singleton _ _
  | cons head rest ih =>
      rcases List.pairwise_cons.mp sorted with ⟨below, others⟩
      rw [insertLine]
      split
      · rename_i before
        rw [List.pairwise_cons]
        refine ⟨?_, sorted⟩
        intro next member
        rcases List.mem_cons.mp member with this | later
        · rw [this]
          exact before
        · exact Nat.lt_trans before (below next later)
      · split
        · exact sorted
        · rw [List.pairwise_cons]
          refine ⟨?_, ih others⟩
          intro next member
          rcases mem_of_mem_insertLine member with this | later
          · rw [this]
            omega
          · exact below next later

def insertLines (lines spans : List LineSpan) : List LineSpan :=
  spans.foldl (fun lines line => insertLine line lines) lines

theorem mem_index_insertLines (lines spans : List LineSpan) (i : Nat) :
    i ∈ (insertLines lines spans).map (·.index) ↔
      i ∈ spans.map (·.index) ∨ i ∈ lines.map (·.index) := by
  induction spans generalizing lines with
  | nil => simp [insertLines]
  | cons span rest ih =>
      have next := ih (insertLine span lines)
      rw [mem_index_insertLine] at next
      rw [List.map_cons, List.mem_cons, or_assoc]
      exact next.trans or_left_comm

theorem mem_of_mem_insertLines {other : LineSpan} {lines spans : List LineSpan}
    (h : other ∈ insertLines lines spans) : other ∈ spans ∨ other ∈ lines := by
  induction spans generalizing lines with
  | nil => exact Or.inr h
  | cons span rest ih =>
      rcases ih h with later | inserted
      · exact Or.inl (List.mem_cons_of_mem span later)
      · rcases mem_of_mem_insertLine inserted with this | listed
        · exact Or.inl (List.mem_cons.mpr (Or.inl this))
        · exact Or.inr listed

theorem pairwise_insertLines {lines : List LineSpan} (spans : List LineSpan)
    (sorted : lines.Pairwise fun a b => a.index < b.index) :
    (insertLines lines spans).Pairwise fun a b => a.index < b.index := by
  induction spans generalizing lines with
  | nil => exact sorted
  | cons span rest ih => exact ih (pairwise_insertLine sorted span)

variable {record : FileRecord} {options : Options} {first : Int} {labels : List Label}

theorem pairwise_touchedLines (placements : List Placement) :
    (touchedLines placements).Pairwise fun a b => a.index < b.index :=
  pairwise_insertLines _ List.Pairwise.nil

theorem mem_index_touchedLines (i : Nat) :
    i ∈ (touchedLines (labels.map (record.placement options first))).map (·.index) ↔
      ∃ label ∈ labels, record.Touches options label i := by
  have inserted := mem_index_insertLines []
    ((labels.map (record.placement options first)).flatMap Placement.lines) i
  rw [List.map_flatMap, List.mem_flatMap, List.map_nil] at inserted
  rw [touchedLines, ← insertLines, inserted]
  constructor
  · rintro (⟨placement, member, listed⟩ | none)
    · rcases List.mem_map.mp member with ⟨label, given, rfl⟩
      exact ⟨label, given, FileRecord.mem_index_lines.mp listed⟩
    · cases none
  · rintro ⟨label, given, touches⟩
    exact Or.inl ⟨_, List.mem_map_of_mem given, FileRecord.mem_index_lines.mpr touches⟩

theorem eq_span_of_mem_touchedLines {span : LineSpan}
    (h : span ∈ touchedLines (labels.map (record.placement options first))) :
    span = record.span span.index := by
  rcases mem_of_mem_insertLines h with inserted | none
  · rcases List.mem_flatMap.mp inserted with ⟨placement, member, listed⟩
    rcases List.mem_map.mp member with ⟨label, _, rfl⟩
    exact FileRecord.eq_span_of_mem_lines listed
  · cases none

/-- Ascending lines of a record are determined by their indices. -/
theorem eq_of_mem_index_iff {lines others : List LineSpan}
    (sorted : lines.Pairwise fun a b => a.index < b.index)
    (again : others.Pairwise fun a b => a.index < b.index)
    (spans : ∀ span ∈ lines, span = record.span span.index)
    (known : ∀ span ∈ others, span = record.span span.index)
    (same : ∀ i, i ∈ lines.map (·.index) ↔ i ∈ others.map (·.index)) : lines = others := by
  have indices := (List.pairwise_map.mpr sorted).eq_of_mem_iff (List.pairwise_map.mpr again) same
  have whole : ∀ list : List LineSpan, (∀ span ∈ list, span = record.span span.index) →
      (list.map (·.index)).map record.span = list := by
    intro list all
    rw [List.map_map]
    calc
      _ = list.map id := List.map_congr_left fun span member => (all span member).symm
      _ = list := List.map_id list
  rw [← whole lines spans, indices, whole others known]

namespace FileOf

variable {base : FileBase} {diagnostic : Diagnostic} {file : PlannedFile}

/-!
# The lines of one file
-/

theorem pairwise_lines (h : FileOf base options first diagnostic file record) :
    file.lines.Pairwise fun a b => a.index < b.index := by
  rw [h.lines_eq, List.pairwise_map]
  exact pairwise_touchedLines _

theorem mem_index_lines (h : FileOf base options first diagnostic file record) (i : Nat) :
    i ∈ file.lines.map (·.index) ↔
      ∃ label ∈ diagnostic.labelsIn file.id, record.Touches options label i := by
  rw [← mem_index_touchedLines, h.lines_eq, List.map_map]
  rfl

theorem line_eq (h : FileOf base options first diagnostic file record) {line : PlannedLine}
    (member : line ∈ file.lines) :
    line = plannedLine (base.numberedFrom first) options
      ((diagnostic.labelsIn file.id).map (record.placement options first))
      (record.span line.index) := by
  rw [h.lines_eq] at member
  rcases List.mem_map.mp member with ⟨span, touched, rfl⟩
  rw [eq_span_of_mem_touchedLines touched]
  rfl

theorem mustRender_iff (h : FileOf base options first diagnostic file record)
    {line : PlannedLine} (member : line ∈ file.lines) :
    line.mustRender = true ↔
      ∃ label ∈ diagnostic.labelsIn file.id, record.Shows options label line.index := by
  rw [h.line_eq member]
  simp only [plannedLine, FileRecord.span, List.any_map, List.any_eq_true, Function.comp_apply,
    FileRecord.shows_placement]

theorem pairwise_renderedLines (h : FileOf base options first diagnostic file record) :
    file.renderedLines.Pairwise fun a b => a.index < b.index :=
  h.pairwise_lines.filter _

/-- A line is shown if and only if a label shows it. -/
theorem mem_index_renderedLines (h : FileOf base options first diagnostic file record) (i : Nat) :
    i ∈ file.renderedLines.map (·.index) ↔
      ∃ label ∈ diagnostic.labelsIn file.id, record.Shows options label i := by
  constructor
  · intro listed
    rcases List.mem_map.mp listed with ⟨line, member, rfl⟩
    rcases List.mem_filter.mp member with ⟨planned, shown⟩
    exact (h.mustRender_iff planned).mp shown
  · rintro ⟨label, given, shows⟩
    have touched := (h.mem_index_lines i).mpr ⟨label, given, shows.touches⟩
    rcases List.mem_map.mp touched with ⟨line, planned, rfl⟩
    have shown := (h.mustRender_iff planned).mpr ⟨label, given, shows⟩
    exact List.mem_map_of_mem (List.mem_filter.mpr ⟨planned, shown⟩)

end FileOf
end Plan
end SourceReport

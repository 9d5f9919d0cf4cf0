import SourceReport.Proofs.OwnLines
import SourceReport.Proofs.ShiftedPlans
import SourceReport.Proofs.SourceRows

/-!
# Aligned files

The lines of one file may stand in another one, each at the same distance further down. Then its
labels are placed there at that distance, and the rich view draws the same, as long as the lines
that it draws have the same texts. What the other lines hold does not matter.
-/

namespace SourceReport
namespace FileRecord

/-!
# Lines at a distance
-/

/-- The lines of a record begin and end further down in the other one. Their texts may differ, and
there may be lines above them. -/
structure Aligned (record moved : FileRecord) (shift : Shift) : Prop where
  name_eq : moved.name = record.name
  lineCount_eq : moved.lineCount = record.lineCount + shift.lines
  startOf_eq : ∀ i, i ≤ record.lineCount →
    moved.startOf (i + shift.lines) = record.startOf i + shift.bytes

/-- The record draws the line for the labels: one of them shows it, or it alone is missing between
two lines that are shown. -/
def Draws (record : FileRecord) (options : Options) (labels : List Label) (i : Nat) : Prop :=
  (∃ label ∈ labels, record.Shows options label i) ∨
    ∃ j, i = j + 1 ∧ (∃ label ∈ labels, record.Shows options label j) ∧
      ∃ label ∈ labels, record.Shows options label (j + 2)

namespace Aligned

variable {record moved : FileRecord} {shift : Shift}

theorem length_encoded (h : record.Aligned moved shift) :
    moved.encoded.length = record.encoded.length + shift.bytes := by
  rw [moved.length_encoded, record.length_encoded, h.lineCount_eq,
    h.startOf_eq _ (Nat.le_refl _)]

theorem lineAt_add (h : record.Aligned moved shift) (offset : Nat) :
    moved.lineAt (offset + shift.bytes) = record.lineAt offset + shift.lines := by
  have inside := record.lineAt_lt_lineCount offset
  have within := moved.lineAt_lt_lineCount (offset + shift.bytes)
  have count := h.lineCount_eq
  have start := record.startOf_lineAt_le offset
  have lower := (moved.startOf_le_iff (i := record.lineAt offset + shift.lines) (by omega)
    (offset + shift.bytes)).mp (by rw [h.startOf_eq _ (Nat.le_of_lt inside)]; omega)
  -- A line further down would start before the offset in the record as well.
  by_contra differs
  have beyond : record.lineAt offset + 1 + shift.lines ≤
      moved.lineAt (offset + shift.bytes) := by omega
  have next : record.lineAt offset + 1 < record.lineCount := by omega
  have reached := (moved.startOf_le_iff (by omega) (offset + shift.bytes)).mpr beyond
  rw [h.startOf_eq _ (Nat.le_of_lt next)] at reached
  have above := (record.startOf_le_iff next offset).mp (by omega)
  omega

theorem wholeLine_eq (h : record.Aligned moved shift) {i : Nat}
    (text : moved.lineText (i + shift.lines) = record.lineText i) :
    moved.wholeLine (i + shift.lines) = record.wholeLine i := by
  have last : (i + shift.lines + 1 < moved.lineCount) = (i + 1 < record.lineCount) := by
    rw [h.lineCount_eq]
    apply propext
    omega
  rw [wholeLine, wholeLine, text, ending, ending]
  simp only [last]

theorem span_add (h : record.Aligned moved shift) {i : Nat} (inside : i < record.lineCount) :
    moved.span (i + shift.lines) = shift.span (record.span i) := by
  have next : i + shift.lines + 1 = i + 1 + shift.lines := by omega
  rw [span, next, h.startOf_eq i (Nat.le_of_lt inside), h.startOf_eq (i + 1) inside, Shift.span,
    Shift.range, Int.natCast_add, Int.natCast_add]
  rfl

theorem map_span (h : record.Aligned moved shift) (start count : Nat)
    (inside : start + count ≤ record.lineCount) :
    (List.range' (start + shift.lines) count).map moved.span =
      ((List.range' start count).map record.span).map shift.span := by
  rw [Nat.add_comm, ← List.map_add_range', List.map_map, List.map_map]
  apply List.map_congr_left
  intro i member
  rw [List.mem_range'_1] at member
  rw [Function.comp_apply, Nat.add_comm, h.span_add (by omega)]
  rfl

/-- The ranges of a line hold the same text in both records. -/
theorem slice_eq (h : record.Aligned moved shift) {i : Nat} (inside : i < record.lineCount)
    (text : moved.lineText (i + shift.lines) = record.lineText i) :
    Slice.slice moved.encoded (shift.range (record.span i).range).1
        (shift.range (record.span i).range).2 =
      Slice.slice record.encoded (record.span i).range.1 (record.span i).range.2 := by
  have spans := congrArg LineSpan.range (h.span_add inside)
  have within : i + shift.lines < moved.lineCount := by
    rw [h.lineCount_eq]
    omega
  have moves : (shift.span (record.span i)).range = shift.range (record.span i).range := rfl
  rw [moves] at spans
  rw [← spans]
  exact (moved.slice_wholeLine within).trans
    ((congrArg _ (congrArg _ (h.wholeLine_eq text))).trans (record.slice_wholeLine inside).symm)

/-!
# Offsets at a distance
-/

section Offsets

variable {offset : Nat}

/-- The offset is as far into its line as before, and the line is as long. -/
theorem exists_reach (h : record.Aligned moved shift) (inside : offset ≤ record.encoded.length) :
    ∃ reach, record.startOf (record.lineAt offset) + reach = offset ∧
      record.startOf (record.lineAt offset) + reach ≤
        record.startOf (record.lineAt offset + 1) ∧
      moved.startOf (record.lineAt offset + shift.lines) + reach = offset + shift.bytes ∧
      moved.startOf (record.lineAt offset + shift.lines) + reach ≤
        moved.startOf (record.lineAt offset + shift.lines + 1) := by
  have line := record.lineAt_lt_lineCount offset
  have start := h.startOf_eq (record.lineAt offset) (Nat.le_of_lt line)
  have next := h.startOf_eq (record.lineAt offset + 1) line
  have order : record.lineAt offset + shift.lines + 1 = record.lineAt offset + 1 + shift.lines := by
    omega
  rcases record.exists_eq_startOf_add inside with ⟨reach, place, within⟩
  refine ⟨reach, place.symm, within, ?_, ?_⟩
  · omega
  · rw [order, start, next]
    omega

theorem lineAt_add_lt (h : record.Aligned moved shift) (offset : Nat) :
    record.lineAt offset + shift.lines < moved.lineCount := by
  rw [h.lineCount_eq]
  exact Nat.add_lt_add_right (record.lineAt_lt_lineCount offset) shift.lines

theorem isCut_add_iff (h : record.Aligned moved shift) (inside : offset ≤ record.encoded.length)
    (text : moved.lineText (record.lineAt offset + shift.lines) =
      record.lineText (record.lineAt offset)) :
    moved.IsCut (offset + shift.bytes) ↔ record.IsCut offset := by
  rcases h.exists_reach inside with ⟨reach, place, within, moves, fits⟩
  have here := record.isCut_startOf_add_iff (record.lineAt_lt_lineCount offset) within
  have there := moved.isCut_startOf_add_iff (h.lineAt_add_lt offset) fits
  rw [h.wholeLine_eq text, moves] at there
  rw [place] at here
  rw [there, here]

theorem locationAt_add (h : record.Aligned moved shift)
    (inside : offset ≤ record.encoded.length)
    (text : moved.lineText (record.lineAt offset + shift.lines) =
      record.lineText (record.lineAt offset)) {first other : Int}
    (numbers : other + shift.lines = first) :
    moved.locationAt other (offset + shift.bytes) = record.locationAt first offset := by
  rcases h.exists_reach inside with ⟨reach, place, within, moves, fits⟩
  have here := record.columnIndex_startOf_add (record.lineAt_lt_lineCount offset) within
  have there := moved.columnIndex_startOf_add (h.lineAt_add_lt offset) fits
  rw [h.wholeLine_eq text, moves] at there
  rw [place] at here
  have number : other + (record.lineAt offset + shift.lines : Nat) =
      first + record.lineAt offset := by omega
  rw [locationAt, locationAt, h.lineAt_add, there, here, number]

end Offsets

/-!
# Labels at a distance
-/

section Labels

variable {label : Label}

theorem fitsIn_label (h : record.Aligned moved shift) (fits : label.FitsIn record)
    (first : moved.lineText (record.lineAt label.start + shift.lines) =
      record.lineText (record.lineAt label.start))
    (last : moved.lineText (record.lineAt label.stop + shift.lines) =
      record.lineText (record.lineAt label.stop)) :
    (shift.label label).FitsIn moved := by
  have order := label.start_le_stop
  rcases fits with ⟨inside, start, stop⟩
  refine ⟨?_, ?_, ?_⟩
  · rw [h.length_encoded]
    exact Nat.add_le_add_right inside shift.bytes
  · exact (h.isCut_add_iff (Nat.le_trans order inside) first).mpr start
  · exact (h.isCut_add_iff inside last).mpr stop

theorem placement_label (h : record.Aligned moved shift) {options : Options} {first other : Int}
    (numbers : other + shift.lines = first) (fits : label.FitsIn record)
    (text : moved.lineText (record.lineAt label.start + shift.lines) =
      record.lineText (record.lineAt label.start))
    (room : shift.lines = 0 ∨ options.before ≤ record.lineAt label.start) :
    moved.placement options other (shift.label label) =
      shift.placement (record.placement options first label) := by
  have order := label.start_le_stop
  have startLine := record.lineAt_lt_lineCount label.start
  have stopLine := record.lineAt_lt_lineCount label.stop
  have start : moved.lineAt (shift.label label).start =
      record.lineAt label.start + shift.lines := h.lineAt_add label.start
  have stop : moved.lineAt (shift.label label).stop =
      record.lineAt label.stop + shift.lines := h.lineAt_add label.stop
  have location : moved.locationAt other (shift.label label).start =
      record.locationAt first label.start :=
    h.locationAt_add (Nat.le_trans order fits.1) text numbers
  have middle := h.map_span (record.lineAt label.start + 1)
    (record.lineAt label.stop - (record.lineAt label.start + 1)) (by omega)
  have before := h.map_span (record.lineAt label.start - options.before)
    (min options.before (record.lineAt label.start)) (by omega)
  have after := h.map_span (record.lineAt label.stop + 1)
    (min options.after (record.lineCount - 1 - record.lineAt label.stop)) (by omega)
  -- Each list of lines begins further down and has as many lines as before.
  have middleStart : record.lineAt label.start + shift.lines + 1 =
      record.lineAt label.start + 1 + shift.lines := by omega
  have middleCount : record.lineAt label.stop + shift.lines -
      (record.lineAt label.start + 1 + shift.lines) =
        record.lineAt label.stop - (record.lineAt label.start + 1) := by omega
  have beforeStart : record.lineAt label.start + shift.lines - options.before =
      record.lineAt label.start - options.before + shift.lines := by omega
  have beforeCount : min options.before (record.lineAt label.start + shift.lines) =
      min options.before (record.lineAt label.start) := by omega
  have afterStart : record.lineAt label.stop + shift.lines + 1 =
      record.lineAt label.stop + 1 + shift.lines := by omega
  have afterCount : record.lineCount + shift.lines - 1 - (record.lineAt label.stop + shift.lines) =
      record.lineCount - 1 - record.lineAt label.stop := by omega
  simp only [FileRecord.placement, Shift.placement, start, stop, location, h.name_eq,
    h.lineCount_eq, h.span_add startLine, h.span_add stopLine, middleStart, middleCount,
    beforeStart, beforeCount, afterStart, afterCount, middle, before, after, List.map_reverse]

end Labels
end Aligned

/-- The lines of the record that are drawn for the labels are drawn alike further down: they have
the same texts, and there is as much room above the labels. -/
structure Redrawn (record moved : FileRecord) (shift : Shift) (options : Options)
    (labels : List Label) : Prop extends record.Aligned moved shift where
  text_eq : ∀ i, record.Draws options labels i →
    moved.lineText (i + shift.lines) = record.lineText i
  room : ∀ label ∈ labels, shift.lines = 0 ∨ options.before ≤ record.lineAt label.start

namespace Redrawn

variable {record moved : FileRecord} {shift : Shift} {options : Options} {labels : List Label}
  {label : Label}

theorem text_start (h : record.Redrawn moved shift options labels) (given : label ∈ labels) :
    moved.lineText (record.lineAt label.start + shift.lines) =
      record.lineText (record.lineAt label.start) :=
  h.text_eq _ (Or.inl ⟨label, given, Or.inl rfl⟩)

theorem text_stop (h : record.Redrawn moved shift options labels) (given : label ∈ labels) :
    moved.lineText (record.lineAt label.stop + shift.lines) =
      record.lineText (record.lineAt label.stop) :=
  h.text_eq _ (Or.inl ⟨label, given, Or.inr (Or.inl rfl)⟩)

end Redrawn
end FileRecord
end SourceReport

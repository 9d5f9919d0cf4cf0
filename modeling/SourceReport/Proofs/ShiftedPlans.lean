import Mathlib.Data.List.Basic
import SourceReport.Proofs.Planning

/-!
# Shifted plans

The lines and the bytes of a plan can be shifted together. Nothing else in it changes: marks and
brackets count from the starts of their lines, and lines are compared with each other only.
-/

namespace SourceReport

/-- By how many lines and bytes something stands further down. -/
structure Shift where
  lines : Nat
  bytes : Nat

namespace Shift

/-- Nothing stands further down. -/
def zero : Shift := ⟨0, 0⟩

variable (shift : Shift)

def label (label : Label) : Label :=
  { label with
    start := label.start + shift.bytes
    stop := label.stop + shift.bytes
    start_le_stop := Nat.add_le_add_right label.start_le_stop shift.bytes }

def diagnostic (diagnostic : Diagnostic) : Diagnostic :=
  { diagnostic with labels := diagnostic.labels.map shift.label }

def range (range : Int × Int) : Int × Int :=
  (range.1 + shift.bytes, range.2 + shift.bytes)

def span (span : LineSpan) : LineSpan :=
  ⟨span.index + shift.lines, shift.range span.range⟩

def placement (placement : Placement) : Placement :=
  { placement with
    label := shift.label placement.label
    first := shift.span placement.first
    last := shift.span placement.last
    middle := placement.middle.map shift.span
    before := placement.before.map shift.span
    after := placement.after.map shift.span }

def plannedLine (line : PlannedLine) : PlannedLine :=
  { line with index := line.index + shift.lines, range := shift.range line.range }

def plannedFile (file : PlannedFile) : PlannedFile :=
  { file with start := file.start + shift.bytes, lines := file.lines.map shift.plannedLine }

def plan (plan : Plan) : Plan :=
  { plan with files := plan.files.map shift.plannedFile }

/-!
# One placement
-/

@[simp]
theorem index_span (span : LineSpan) : (shift.span span).index = span.index + shift.lines := rfl

@[simp]
theorem isSingle_placement (placement : Placement) :
    (shift.placement placement).isSingle = placement.isSingle := by
  simp only [Placement.isSingle, Shift.placement, index_span, Nat.add_right_cancel_iff]

theorem singleMark_placement (placement : Placement) :
    (shift.placement placement).singleMark = placement.singleMark := by
  simp only [Placement.singleMark, Shift.placement, Shift.label, span, range, Int.natCast_add,
    Int.add_sub_add_right]

theorem part?_placement (placement : Placement) (line : Nat) :
    (shift.placement placement).part? (line + shift.lines) = placement.part? line := by
  simp only [Placement.part?, Shift.placement, Shift.label, span, range, Int.natCast_add,
    Int.add_sub_add_right, Nat.add_right_cancel_iff, Nat.add_lt_add_iff_right]

theorem any_index_span (spans : List LineSpan) (line : Nat) :
    ((spans.map shift.span).any fun span => span.index = line + shift.lines) =
      spans.any fun span => span.index = line := by
  simp only [List.any_map, Function.comp_def, index_span, Nat.add_right_cancel_iff]

theorem shows_placement (options : Options) (placement : Placement) (line : Nat) :
    (shift.placement placement).shows options (line + shift.lines) =
      placement.shows options line := by
  have before := shift.any_index_span placement.before line
  have after := shift.any_index_span placement.after line
  simp only [Placement.shows, Shift.placement, before, after, index_span,
    Nat.add_right_cancel_iff, Nat.add_lt_add_iff_right, Nat.add_sub_add_right]

theorem better_placement (held next : Placement) :
    Placement.better (shift.placement held) (shift.placement next) =
      shift.placement (Placement.better held next) := by
  simp only [Placement.better, Shift.placement, Shift.label, Nat.add_lt_add_iff_right]
  split
  · rfl
  · rfl

theorem foldl_better (head : Placement) (placements : List Placement) :
    (placements.map shift.placement).foldl Placement.better (shift.placement head) =
      shift.placement (placements.foldl Placement.better head) := by
  induction placements generalizing head with
  | nil => rfl
  | cons next rest ih =>
      rw [List.map_cons, List.foldl_cons, List.foldl_cons, better_placement, ih]

/-!
# The lines of a file
-/

theorem insertLine_span (line : LineSpan) (lines : List LineSpan) :
    Plan.insertLine (shift.span line) (lines.map shift.span) =
      (Plan.insertLine line lines).map shift.span := by
  induction lines with
  | nil => rfl
  | cons head rest ih =>
      simp only [List.map_cons, Plan.insertLine, index_span, Nat.add_lt_add_iff_right,
        Nat.add_right_cancel_iff, ih]
      split
      · rfl
      · split
        · rfl
        · rfl

theorem insertLines_span (lines spans : List LineSpan) :
    (spans.map shift.span).foldl (fun lines line => Plan.insertLine line lines)
        (lines.map shift.span) =
      (spans.foldl (fun lines line => Plan.insertLine line lines) lines).map shift.span := by
  induction spans generalizing lines with
  | nil => rfl
  | cons line rest ih =>
      rw [List.map_cons, List.foldl_cons, List.foldl_cons, insertLine_span, ih]

theorem lines_placement (placement : Placement) :
    (shift.placement placement).lines = placement.lines.map shift.span := by
  simp only [Placement.lines, Shift.placement, List.map_append, List.map_cons]

theorem touchedLines_map (placements : List Placement) :
    Plan.touchedLines (placements.map shift.placement) =
      (Plan.touchedLines placements).map shift.span := by
  have spans : (placements.map shift.placement).flatMap Placement.lines =
      (placements.flatMap Placement.lines).map shift.span := by
    rw [List.flatMap_map, List.map_flatMap]
    exact List.flatMap_congr fun placement _ => shift.lines_placement placement
  rw [Plan.touchedLines, spans]
  exact shift.insertLines_span [] _

theorem singleMarks_map (placements : List Placement) (line : Nat) :
    Plan.singleMarks (placements.map shift.placement) (line + shift.lines) =
      Plan.singleMarks placements line := by
  have marked : ((fun placement : Placement =>
        placement.isSingle && placement.first.index = line + shift.lines) ∘ shift.placement) =
      fun placement => placement.isSingle && placement.first.index = line := by
    funext placement
    rw [Function.comp_apply, isSingle_placement]
    simp only [Shift.placement, index_span, Nat.add_right_cancel_iff]
  have marks : Placement.singleMark ∘ shift.placement = Placement.singleMark :=
    funext shift.singleMark_placement
  rw [Plan.singleMarks, List.filter_map, List.map_map, marked, marks, Plan.singleMarks]

theorem bracketed_map (placements : List Placement) :
    Plan.bracketed (placements.map shift.placement) =
      (Plan.bracketed placements).map shift.placement := by
  have several : ((fun placement : Placement => !placement.isSingle) ∘ shift.placement) =
      fun placement => !placement.isSingle := by
    funext placement
    rw [Function.comp_apply, isSingle_placement]
  rw [Plan.bracketed, List.filter_map, several, Plan.bracketed]

theorem bracketEntries_map (placements : List Placement) (line : Nat) :
    Plan.bracketEntries (placements.map shift.placement) (line + shift.lines) =
      Plan.bracketEntries placements line := by
  rw [Plan.bracketEntries, bracketed_map, List.zipIdx_map, List.filterMap_map,
    Plan.bracketEntries]
  congr 1
  funext placed
  simp only [Function.comp_apply, Prod.map, part?_placement]
  rfl

/-!
# Plans
-/

variable {shift} {lookup other : Lookup}

/-- Lines that are shifted keep their numbers, if the first number is lower by the shift. -/
theorem lineNumber_add (numbers : other.firstNumber + shift.lines = lookup.firstNumber)
    (line : Nat) : other.lineNumber (line + shift.lines : Nat) = lookup.lineNumber line := by
  rw [Lookup.lineNumber, Lookup.lineNumber, ← numbers]
  omega

variable (options : Options)

theorem plannedLine_map (numbers : other.firstNumber + shift.lines = lookup.firstNumber)
    (placements : List Placement) (line : LineSpan) :
    Plan.plannedLine other options (placements.map shift.placement) (shift.span line) =
      shift.plannedLine (Plan.plannedLine lookup options placements line) := by
  have shown : (placements.map shift.placement).any
        (fun placement => placement.shows options (line.index + shift.lines)) =
      placements.any fun placement => placement.shows options line.index := by
    rw [List.any_map]
    congr 1
    funext placement
    exact shift.shows_placement options placement line.index
  simp only [Plan.plannedLine, Shift.plannedLine, index_span, lineNumber_add numbers,
    singleMarks_map, bracketEntries_map, shown]
  rfl

theorem plannedFile_map (numbers : other.firstNumber + shift.lines = lookup.firstNumber)
    (head : Placement) (placements : List Placement) :
    Plan.plannedFile other options (shift.placement head) (placements.map shift.placement) =
      shift.plannedFile (Plan.plannedFile lookup options head placements) := by
  have lines : Plan.plannedLine other options (placements.map shift.placement) ∘ shift.span =
      shift.plannedLine ∘ Plan.plannedLine lookup options placements :=
    funext (plannedLine_map options numbers placements)
  simp only [Plan.plannedFile, foldl_better, bracketed_map, List.length_map, touchedLines_map,
    List.map_map, lines]
  rw [← List.map_map]
  rfl

theorem firstMentions_map (placements : List Placement) :
    Plan.firstMentions (placements.map shift.placement) =
      (Plan.firstMentions placements).map shift.placement := by
  induction placements using List.reverseRecOn with
  | nil => rfl
  | append_singleton front placement ih =>
      have known : ((fun head : Placement =>
            head.label.file.same (shift.placement placement).label.file) ∘ shift.placement) =
          fun head => head.label.file.same placement.label.file := rfl
      rw [List.map_append, List.map_singleton, Plan.firstMentions_concat,
        Plan.firstMentions_concat, ih, Plan.addMention, Plan.addMention, List.any_map, known]
      split
      · rfl
      · rw [List.map_append, List.map_singleton]

theorem plannedFiles_map (numbers : other.firstNumber + shift.lines = lookup.firstNumber)
    (placements : List Placement) :
    Plan.plannedFiles other options (placements.map shift.placement) =
      (Plan.plannedFiles lookup options placements).map shift.plannedFile := by
  rw [Plan.plannedFiles, Plan.plannedFiles, firstMentions_map, List.map_map, List.map_map]
  apply List.map_congr_left
  intro head _
  rw [Function.comp_apply, Function.comp_apply, List.filter_map,
    ← plannedFile_map options numbers]
  rfl

theorem gutterWidth_map (numbers : other.firstNumber + shift.lines = lookup.firstNumber)
    (placements : List Placement) :
    Plan.gutterWidth other (placements.map shift.placement) =
      Plan.gutterWidth lookup placements := by
  have widths : (fun placement : Placement =>
        (placement.first :: placement.last :: placement.middle).map fun line =>
          Plan.countDigits (other.lineNumber line.index)) ∘ shift.placement =
      fun placement => (placement.first :: placement.last :: placement.middle).map fun line =>
        Plan.countDigits (lookup.lineNumber line.index) := by
    funext placement
    simp only [Function.comp_apply, Shift.placement, List.map_cons, List.map_map,
      Function.comp_def, index_span, lineNumber_add numbers]
  rw [Plan.gutterWidth, List.flatMap_map, Plan.gutterWidth]
  exact congrArg (fun width => (placements.flatMap width).foldl max 0) widths

end Shift
end SourceReport

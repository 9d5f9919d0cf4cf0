import SourceReport.Proofs.AlignedFiles
import SourceReport.Proofs.Reports

/-!
# Redrawn views

A diagnostic whose labels are placed at a distance in another file base is drawn there as before: its
plan is the shifted plan, and the steps of the rich view are the same.
-/

namespace SourceReport

/-- The labels of the diagnostic are valid, and each file of a label has another record in the second
base, where the lines that are drawn of the file are drawn alike. -/
def Diagnostic.Redrawn (base other : FileBase) (shift : Shift) (options : Options)
    (diagnostic : Diagnostic) : Prop :=
  ∀ label ∈ diagnostic.labels, ∃ record moved, base.Holds label.file record ∧
    other.Holds label.file moved ∧ label.FitsIn record ∧
    record.Redrawn moved shift options (diagnostic.labelsIn label.file)

namespace Diagnostic.Redrawn

variable {base other : FileBase} {shift : Shift} {options : Options} {diagnostic : Diagnostic}
  {label : Label}

theorem valid (h : diagnostic.Redrawn base other shift options) :
    ∀ label ∈ diagnostic.labels, label.IsValid base := by
  intro label listed
  rcases h label listed with ⟨record, _, held, _, fits, _⟩
  exact ⟨record, held, fits⟩

theorem mem_labelsIn (h : diagnostic.Redrawn base other shift options)
    (listed : label ∈ diagnostic.labels) : label ∈ diagnostic.labelsIn label.file := by
  rcases h label listed with ⟨record, _, held, _⟩
  exact List.mem_filter.mpr ⟨listed, (held.same_iff held.isSome_whole?).mpr rfl⟩

/-- The shifted labels are valid in the second base. -/
theorem valid_label (h : diagnostic.Redrawn base other shift options)
    (listed : label ∈ diagnostic.labels) : (shift.label label).IsValid other := by
  have given := h.mem_labelsIn listed
  rcases h label listed with ⟨record, moved, _, known, fits, redrawn⟩
  exact ⟨moved, known,
    redrawn.fitsIn_label fits (redrawn.text_start given) (redrawn.text_stop given)⟩

theorem valid_labels (h : diagnostic.Redrawn base other shift options) :
    ∀ label ∈ (shift.diagnostic diagnostic).labels, label.IsValid other := by
  intro label listed
  rcases List.mem_map.mp listed with ⟨before, given, rfl⟩
  exact h.valid_label given

/-!
# Plans
-/

variable {first second : Int}

theorem placed_label (h : diagnostic.Redrawn base other shift options)
    (numbers : second + shift.lines = first) (listed : label ∈ diagnostic.labels) :
    other.placed options second (shift.label label) =
      shift.placement (base.placed options first label) := by
  have given := h.mem_labelsIn listed
  rcases h label listed with ⟨record, moved, held, known, fits, redrawn⟩
  have shifted : other.Holds (shift.label label).file moved := known
  rw [shifted.placed_eq, held.placed_eq,
    redrawn.placement_label numbers fits (redrawn.text_start given) (redrawn.room label given)]

theorem map_placed (h : diagnostic.Redrawn base other shift options)
    (numbers : second + shift.lines = first) :
    (shift.diagnostic diagnostic).labels.map (other.placed options second) =
      (diagnostic.labels.map (base.placed options first)).map shift.placement := by
  rw [Shift.diagnostic, List.map_map, List.map_map]
  apply List.map_congr_left
  intro label listed
  exact h.placed_label numbers listed

/-- The plan in the second base is the shifted plan. -/
theorem ofDiagnostic_eq (h : diagnostic.Redrawn base other shift options)
    (numbers : second + shift.lines = first) :
    Plan.ofDiagnostic (other.numberedFrom second) options (shift.diagnostic diagnostic) =
      (Plan.ofDiagnostic (base.numberedFrom first) options diagnostic).map shift.plan := by
  have firstNumbers : (other.numberedFrom second).firstNumber + shift.lines =
      (base.numberedFrom first).firstNumber := numbers
  rw [Plan.ofDiagnostic_eq h.valid_labels, Plan.ofDiagnostic_eq h.valid, h.map_placed numbers,
    Shift.plannedFiles_map options firstNumbers, Shift.gutterWidth_map firstNumbers]
  rfl

end Diagnostic.Redrawn

/-!
# Lines of one file
-/

namespace Plan.FileOf

open View

variable {base other : FileBase} {shift : Shift} {options : Options} {first second : Int}
  {diagnostic : Diagnostic} {file : PlannedFile} {record moved : FileRecord}

/-- The lines that a planned file draws are those that its record draws for the labels. -/
theorem draws_iff (h : FileOf base options first diagnostic file record) (i : Nat) :
    i ∈ file.drawn ↔ record.Draws options (diagnostic.labelsIn file.id) i := by
  have shown := h.mem_index_renderedLines
  rw [h.mem_drawn_iff, Snippet.IsFilled, FileRecord.Draws, shown]
  simp only [shown]
  constructor
  · rintro (listed | ⟨j, above, this, below⟩)
    · exact Or.inl listed
    · exact Or.inr ⟨j, this, above, below⟩
  · rintro (listed | ⟨j, this, above, below⟩)
    · exact Or.inl listed
    · exact Or.inr ⟨j, above, this, below⟩

theorem range_eq (h : FileOf base options first diagnostic file record) {line : PlannedLine}
    (member : line ∈ file.lines) : line.range = (record.span line.index).range := by
  rw [h.line_eq member]
  rfl

variable (h : FileOf base options first diagnostic file record)
  (redrawn : record.Redrawn moved shift options (diagnostic.labelsIn file.id))
  (held : other.Holds file.id moved) (numbers : second + shift.lines = first) (padding : Nat)

include redrawn

/-- A drawn line has the same rows in both files, with the same marks and brackets. -/
theorem lineSteps_shift {i : Nat} (inside : i < record.lineCount)
    (drawn : record.Draws options (diagnostic.labelsIn file.id) i) (number : Int)
    (marks : List SingleMark) (entries : List BracketEntry) :
    Rich.lineSteps options padding (shift.plannedFile file) moved.encoded number
        (shift.range (record.span i).range) marks entries =
      Rich.lineSteps options padding file record.encoded number (record.span i).range marks
        entries := by
  rw [Rich.lineSteps, Rich.lineSteps, redrawn.slice_eq inside (redrawn.text_eq i drawn)]
  rfl

include h

theorem plannedLineSteps_shift {line : PlannedLine} (member : line ∈ file.renderedLines) :
    Rich.plannedLineSteps options padding (shift.plannedFile file) moved.encoded
        (shift.plannedLine line) =
      Rich.plannedLineSteps options padding file record.encoded line := by
  have listed := (List.mem_filter.mp member).1
  have shown := (h.mem_index_renderedLines line.index).mp (List.mem_map_of_mem member)
  have range := h.range_eq listed
  rw [Rich.plannedLineSteps, Rich.plannedLineSteps, range]
  have moves : (shift.plannedLine line).range = shift.range (record.span line.index).range :=
    congrArg shift.range range
  rw [moves]
  exact lineSteps_shift redrawn padding (h.lt_lineCount listed) (Or.inl shown) _ _ _

include held numbers

theorem hiddenLineSteps_shift {i : Nat} (inside : i < record.lineCount)
    (drawn : record.Draws options (diagnostic.labelsIn file.id) i) :
    Rich.hiddenLineSteps (other.numberedFrom second) options padding (shift.plannedFile file)
        moved.encoded (i + shift.lines) =
      Rich.hiddenLineSteps (base.numberedFrom first) options padding file record.encoded i := by
  have within : i + shift.lines < moved.lineCount := by
    rw [redrawn.lineCount_eq]
    omega
  have number : (other.numberedFrom second).lineNumber (i + shift.lines : Nat) =
      (base.numberedFrom first).lineNumber i := Shift.lineNumber_add numbers i
  have ranges : (other.numberedFrom second).lineRange (shift.plannedFile file).id
      (i + shift.lines : Nat) = .ok (shift.range (record.span i).range) := by
    rw [show (shift.plannedFile file).id = file.id from rfl, held.lineRange_eq,
      moved.lineRange_of_lt within]
    exact congrArg (fun span => Except.ok span.range) (redrawn.span_add inside)
  have range : (base.numberedFrom first).lineRange file.id i = .ok (record.span i).range := by
    rw [h.held.lineRange_eq, record.lineRange_of_lt inside]
    rfl
  have brackets : ((shift.plannedFile file).line? (i + shift.lines)).elim [] (·.brackets) =
      (file.line? i).elim [] (·.brackets) := by
    have index : (fun line : PlannedLine => decide ((shift.plannedLine line).index =
        i + shift.lines)) = fun line => decide (line.index = i) := by
      funext line
      simp only [Shift.plannedLine, Nat.add_right_cancel_iff]
    simp only [PlannedFile.line?, Shift.plannedFile, List.find?_map, Function.comp_def, index]
    cases file.lines.find? fun line => decide (line.index = i) with
    | none => rfl
    | some line => rfl
  simp only [Rich.hiddenLineSteps, ranges, range, number, brackets]
  exact lineSteps_shift redrawn padding inside drawn _ _ _

theorem betweenSteps_shift {front rest : List PlannedLine} {line next : PlannedLine}
    (suffix : file.renderedLines = front ++ line :: next :: rest) :
    Rich.betweenSteps (other.numberedFrom second) options padding (shift.plannedFile file)
        moved.encoded (shift.plannedLine line) (shift.plannedLine next) =
      Rich.betweenSteps (base.numberedFrom first) options padding file record.encoded line
        next := by
  have above : line ∈ file.renderedLines := by
    rw [suffix]
    exact List.mem_append_right front List.mem_cons_self
  have below : next ∈ file.renderedLines := by
    rw [suffix]
    exact List.mem_append_right front (List.mem_cons_of_mem line List.mem_cons_self)
  have double : ((shift.plannedLine next).index = (shift.plannedLine line).index + 2) =
      (next.index = line.index + 2) := by
    simp only [Shift.plannedLine]
    apply propext
    omega
  have apart : ((shift.plannedLine line).index + 2 < (shift.plannedLine next).index) =
      (line.index + 2 < next.index) := by
    simp only [Shift.plannedLine]
    apply propext
    omega
  have between : (shift.plannedLine line).index + 1 = line.index + 1 + shift.lines := by
    simp only [Shift.plannedLine]
    omega
  simp only [Rich.betweenSteps, double, apart, between]
  split
  · rename_i two
    have inside := h.lt_lineCount (List.mem_filter.mp below).1
    have drawn : line.index + 1 ∈ file.drawn := by
      rw [h.mem_drawn_iff]
      exact Or.inr ⟨line.index, List.mem_map_of_mem above, rfl, two ▸ List.mem_map_of_mem below⟩
    exact hiddenLineSteps_shift h redrawn held numbers padding (by omega) ((h.draws_iff _).mp drawn)
  · rfl

theorem linesSteps_shift {lines front : List PlannedLine}
    (suffix : file.renderedLines = front ++ lines) :
    Rich.linesSteps (other.numberedFrom second) options padding (shift.plannedFile file)
        moved.encoded (lines.map shift.plannedLine) =
      Rich.linesSteps (base.numberedFrom first) options padding file record.encoded lines := by
  induction lines generalizing front with
  | nil => rfl
  | cons line rest ih =>
      have member : line ∈ file.renderedLines := by
        rw [suffix]
        exact List.mem_append_right front List.mem_cons_self
      have extended : file.renderedLines = (front ++ [line]) ++ rest := by
        rw [suffix, List.append_assoc, List.singleton_append]
      have this := plannedLineSteps_shift h redrawn padding member
      have tail := ih extended
      cases rest with
      | nil =>
          rw [List.map_singleton, Rich.linesSteps, Rich.linesSteps, this]
          rfl
      | cons next rest =>
          have between := betweenSteps_shift h redrawn held numbers padding suffix
          rw [List.map_cons] at tail
          rw [List.map_cons, List.map_cons, Rich.linesSteps, this, tail]
          simp only [between]
          rfl

theorem fileSteps_shift (isClosed : Bool) :
    Rich.fileSteps (other.numberedFrom second) options padding (shift.plannedFile file) isClosed =
      Rich.fileSteps (base.numberedFrom first) options padding file isClosed := by
  have rendered : (shift.plannedFile file).renderedLines =
      file.renderedLines.map shift.plannedLine :=
    List.filter_map
  have lines := linesSteps_shift h redrawn held numbers padding (List.nil_append _).symm
  have empty : (shift.plannedFile file).lines.isEmpty = file.lines.isEmpty := List.isEmpty_map
  have count : (shift.plannedFile file).lines.length = file.lines.length := List.length_map _
  have encoded : (other.numberedFrom second).encoded (shift.plannedFile file).id =
      .ok moved.encoded := held.encoded_eq
  simp only [Rich.fileSteps, encoded, h.held.encoded_eq, rendered, lines, empty, count,
    List.length_map]
  rfl

end Plan.FileOf

/-!
# The rich view
-/

namespace Diagnostic.Redrawn

open View

variable {base other : FileBase} {shift : Shift} {options : Options} {diagnostic : Diagnostic}
  {first second : Int}

/-- The record in which a planned file is drawn again. -/
theorem exists_redrawn (h : diagnostic.Redrawn base other shift options) {file : PlannedFile}
    {record : FileRecord} (known : Plan.FileOf base options first diagnostic file record) :
    ∃ moved, other.Holds file.id moved ∧
      record.Redrawn moved shift options (diagnostic.labelsIn file.id) := by
  rcases known.planned with ⟨head, given, planned⟩
  have id : file.id = head.file := congrArg PlannedFile.id planned
  rcases h head (List.mem_filter.mp given).1 with ⟨other, moved, held, again, _, redrawn⟩
  have same : record = other := known.held.unique (id ▸ held)
  rw [id, same]
  exact ⟨moved, again, redrawn⟩

theorem filesSteps_eq (h : diagnostic.Redrawn base other shift options)
    (numbers : second + shift.lines = first) (padding : Nat) (hasNotes : Bool)
    {files : List PlannedFile}
    (planned : ∀ file ∈ files, ∃ record, Plan.FileOf base options first diagnostic file record) :
    Rich.filesSteps (other.numberedFrom second) options padding hasNotes
        (files.map shift.plannedFile) =
      Rich.filesSteps (base.numberedFrom first) options padding hasNotes files := by
  induction files with
  | nil => rfl
  | cons file rest ih =>
      rw [List.forall_mem_cons] at planned
      rcases planned.1 with ⟨record, known⟩
      rcases h.exists_redrawn known with ⟨moved, held, redrawn⟩
      rw [List.map_cons, Rich.filesSteps, Rich.filesSteps, ih planned.2, List.isEmpty_map,
        known.fileSteps_shift redrawn held numbers]

theorem steps_eq (h : diagnostic.Redrawn base other shift options)
    (numbers : second + shift.lines = first) :
    Rich.steps (other.numberedFrom second) options (shift.diagnostic diagnostic) =
      Rich.steps (base.numberedFrom first) options diagnostic := by
  rw [Rich.steps, Rich.steps, h.ofDiagnostic_eq numbers, Plan.ofDiagnostic_eq h.valid]
  have known : ∀ file ∈ Plan.plannedFiles (base.numberedFrom first) options
      (diagnostic.labels.map (base.placed options first)),
      ∃ record, Plan.FileOf base options first diagnostic file record :=
    fun _ member => Plan.fileOf_of_mem h.valid member
  have files := fun padding => h.filesSteps_eq numbers padding (!diagnostic.notes.isEmpty) known
  simp only [Except.map, Shift.plan, Rich.planSteps, Shift.diagnostic, List.length_map, files]

/-!
# Drawings
-/

/-- A shifted label lies on lines of the same numbers. -/
theorem isCounted_label (h : diagnostic.Redrawn base other shift options)
    (numbers : second + shift.lines = first) {label : Label} (listed : label ∈ diagnostic.labels) :
    (shift.label label).isCounted other second = label.isCounted base first := by
  rcases h label listed with ⟨record, moved, held, known, _, redrawn⟩
  have shifted : other.Holds (shift.label label).file moved := known
  have number : ∀ offset, second + (moved.lineAt (offset + shift.bytes) : Int) =
      first + record.lineAt offset := by
    intro offset
    have line := redrawn.lineAt_add offset
    omega
  rw [Label.isCounted, Label.isCounted, shifted.recordAt_eq, held.recordAt_eq, Shift.label, number,
    number]

theorem ofPlan?_eq (h : diagnostic.Redrawn base other shift options)
    (rich : options.displayStyle = .rich) (numbers : second + shift.lines = first) :
    Overflow.ofPlan? (other.numberedFrom second) options (shift.diagnostic diagnostic) =
      Overflow.ofPlan? (base.numberedFrom first) options diagnostic := by
  apply Overflow.ofPlan?_congr rich h.valid h.valid_labels
  rw [Shift.diagnostic, List.forall_mem_map]
  apply forall_congr'
  intro label
  apply forall_congr'
  intro listed
  rw [h.isCounted_label numbers listed]

/-- The diagnostic is drawn in the second base as in the first one. -/
theorem add_eq (h : diagnostic.Redrawn base other shift options)
    (rich : options.displayStyle = .rich) (numbers : second + shift.lines = first)
    (machine : Machine) (theme : Theme) (report : Report) :
    Overflow.add (other.numberedFrom second) options theme report (shift.diagnostic diagnostic)
        machine =
      Overflow.add (base.numberedFrom first) options theme report diagnostic machine := by
  have rows : View.steps (other.numberedFrom second) options (shift.diagnostic diagnostic) =
      View.steps (base.numberedFrom first) options diagnostic := by
    rw [View.steps, View.steps, rich]
    exact h.steps_eq numbers
  rw [Overflow.add, Overflow.add, h.ofPlan?_eq rich numbers, rows]
  rfl

end Diagnostic.Redrawn
end SourceReport

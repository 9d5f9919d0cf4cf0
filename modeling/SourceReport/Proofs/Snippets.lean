import SourceReport.Proofs.Gaps
import SourceReport.Proofs.PlannedLines
import SourceReport.View

/-!
# Snippets

The rows of a snippet follow from the indices of its shown lines. A line that alone is missing
between two others is drawn like a shown one, since no label begins or ends on it, and wherever more
lines are missing a single row stands for them.
-/

namespace SourceReport
namespace Line

/-!
# Line ends
-/

theorem trimTrailing_concat_newline (line : List Char) :
    trimTrailing (line ++ ['\n']) = trimTrailing line := by
  rw [trimTrailing, List.reverse_append, List.reverse_singleton, List.singleton_append,
    List.dropWhile_cons_of_pos (by decide)]
  rfl

theorem rows_concat_newline (tabWidth : Nat) (number : Int) (line : List Char)
    (marks : List SingleMark) (columns : Nat) (entries : List BracketEntry) :
    rows tabWidth number (String.ofList (line ++ ['\n'])) marks columns entries =
      rows tabWidth number (String.ofList line) marks columns entries := by
  simp only [rows, String.toList_ofList, trimTrailing_concat_newline]

end Line

namespace FileRecord

/-!
# The rows of a line
-/

variable (record : FileRecord) (options : Options) (first : Int) (labels : List Label)

/-- Whether a label begins and ends on one line. -/
def isSingle (label : Label) : Bool :=
  record.lineAt label.start = record.lineAt label.stop

/-- The labels over several lines, in order; their places in this list are their columns. -/
def bracketed : List Label :=
  labels.filter fun label => !record.isSingle label

theorem bracketed_placement :
    Plan.bracketed (labels.map (record.placement options first)) =
      (record.bracketed labels).map (record.placement options first) :=
  List.filter_map

/-- The text of a line, without the newline that ends it. -/
def lineText (i : Nat) : List Char :=
  (splitLines record.source.toList).getD i []

def marksAt (i : Nat) : List SingleMark :=
  Plan.singleMarks (labels.map (record.placement options first)) i

def columns : Nat :=
  (Plan.bracketed (labels.map (record.placement options first))).length

def entriesAt (i : Nat) : List BracketEntry :=
  Plan.bracketEntries (labels.map (record.placement options first)) i

def lineRows (i : Nat) : List Row :=
  Line.rows options.tabWidth (first + i) (String.ofList (record.lineText i))
    (record.marksAt options first labels i) (record.columns options first labels)
    (record.entriesAt options first labels i)

/-- The row that stands for the lines missing before line `next`. -/
def gapRow (next : Nat) : Row :=
  .gap (Gutter.ofLine (record.entriesAt options first labels next)
    (record.columns options first labels))

def snippetRows (shown : List Nat) : List Row :=
  Snippet.weave (record.lineRows options first labels)
    (fun _ next => [record.gapRow options first labels next]) (Snippet.fillGaps shown)

theorem getElem?_splitLines {i : Nat} (h : i < record.lineCount) :
    (splitLines record.source.toList)[i]? = some (record.lineText i) := by
  have count : (splitLines record.source.toList).length = record.lineCount :=
    length_pieces '\n' record.source.toList
  rw [lineText, List.getD_eq_getElem?_getD, List.getElem?_eq_getElem (by omega)]
  rfl

theorem slice_lineText {i : Nat} (h : i < record.lineCount) :
    ∃ ending, (ending = [] ∨ ending = ['\n']) ∧
      Slice.slice record.encoded (record.startOf i) (record.startOf (i + 1)) =
        .ok (String.ofList (record.lineText i ++ ending)) := by
  rw [record.slice_line (record.getElem?_splitLines h)]
  split
  · exact ⟨['\n'], Or.inr rfl, rfl⟩
  · exact ⟨[], Or.inl rfl, by rw [List.append_nil]⟩

variable {record options first labels}

theorem marksAt_eq_nil {i : Nat} (h : ∀ label ∈ labels, ¬ record.Shows options label i) :
    record.marksAt options first labels i = [] := by
  have unmarked : (labels.map (record.placement options first)).filter
      (fun placement => placement.isSingle && placement.first.index = i) = [] := by
    rw [List.filter_eq_nil_iff]
    intro placement member
    rcases List.mem_map.mp member with ⟨label, given, rfl⟩
    intro holds
    rw [Bool.and_eq_true, decide_eq_true_eq] at holds
    exact h label given (Or.inl holds.2.symm)
  rw [marksAt, Plan.singleMarks, unmarked]
  rfl

theorem entriesAt_eq_nil {i : Nat} (h : ∀ label ∈ labels, ¬ record.Touches options label i)
    (inside : i < record.lineCount) : record.entriesAt options first labels i = [] := by
  rw [entriesAt, Plan.bracketEntries, List.filterMap_eq_nil_iff]
  rintro ⟨placement, column⟩ member
  have listed := (List.mem_filter.mp (List.fst_mem_of_mem_zipIdx member)).1
  rcases List.mem_map.mp listed with ⟨label, given, rfl⟩
  have untouched := h label given
  have order := lineAt_start_le_stop record label
  unfold Touches at untouched
  have first_ne : i ≠ record.lineAt label.start := by omega
  have last_ne : i ≠ record.lineAt label.stop := by omega
  have outside : ¬ (record.lineAt label.start < i ∧ i < record.lineAt label.stop) := by omega
  simp only [Placement.part?]
  rw [first_placement, last_placement, if_neg first_ne, if_neg last_ne, if_neg outside,
    Option.map_none]

end FileRecord

/-- The lines of a file of a plan that have a source row: those that must be rendered, and each that
alone is missing between two of them. -/
def PlannedFile.drawn (file : PlannedFile) : List Nat :=
  Snippet.fillGaps (file.renderedLines.map (·.index))

namespace Plan
namespace FileOf

open View

variable {base : FileBase} {options : Options} {first : Int} {diagnostic : Diagnostic}
  {file : PlannedFile} {record : FileRecord}

/-!
# The steps of a line
-/

theorem columns_eq (h : FileOf base options first diagnostic file record) :
    file.numBrackets = record.columns options first (diagnostic.labelsIn file.id) :=
  h.numBrackets_eq

theorem lineSteps_eq (h : FileOf base options first diagnostic file record) (padding : Nat)
    {i : Nat} (inside : i < record.lineCount) (number : Int) (marks : List SingleMark)
    (entries : List BracketEntry) :
    Rich.lineSteps options padding file record.encoded number
        (record.startOf i, record.startOf (i + 1)) marks entries =
      (Line.rows options.tabWidth number (String.ofList (record.lineText i)) marks
        (record.columns options first (diagnostic.labelsIn file.id)) entries).map
          (Step.row padding) := by
  rcases record.slice_lineText inside with ⟨ending, cases_ending, sliced⟩
  simp only [Rich.lineSteps, sliced, h.columns_eq]
  rcases cases_ending with rfl | rfl
  · rw [List.append_nil]
  · rw [Line.rows_concat_newline]

theorem lt_lineCount (h : FileOf base options first diagnostic file record) {line : PlannedLine}
    (member : line ∈ file.lines) : line.index < record.lineCount := by
  have touched := (h.mem_index_lines line.index).mp (List.mem_map_of_mem member)
  rcases touched with ⟨label, _, touches⟩
  exact touches.2.2

theorem plannedLineSteps_eq (h : FileOf base options first diagnostic file record)
    (padding : Nat) {line : PlannedLine} (member : line ∈ file.lines) :
    Rich.plannedLineSteps options padding file record.encoded line =
      (record.lineRows options first (diagnostic.labelsIn file.id) line.index).map
        (Step.row padding) := by
  have inside := h.lt_lineCount member
  rw [Rich.plannedLineSteps, h.line_eq member]
  exact h.lineSteps_eq padding inside _ _ _

theorem brackets_line? (h : FileOf base options first diagnostic file record) {i : Nat}
    (inside : i < record.lineCount) :
    (file.line? i).elim [] (·.brackets) =
      record.entriesAt options first (diagnostic.labelsIn file.id) i := by
  cases found : file.line? i with
  | none =>
      have missing : ∀ label ∈ diagnostic.labelsIn file.id, ¬ record.Touches options label i := by
        intro label given touches
        have listed := (h.mem_index_lines i).mpr ⟨label, given, touches⟩
        rcases List.mem_map.mp listed with ⟨line, member, same⟩
        have differs := List.find?_eq_none.mp found line member
        exact differs (decide_eq_true same)
      exact (FileRecord.entriesAt_eq_nil missing inside).symm
  | some line =>
      have member := List.mem_of_find?_eq_some found
      rw [PlannedFile.line?] at found
      have same : line.index = i := by simpa using List.find?_some found
      rw [Option.elim_some, h.line_eq member, ← same]
      rfl

/-- A line that no label shows has no marks, so its rows are those of any other line. -/
theorem hiddenLineSteps_eq (h : FileOf base options first diagnostic file record)
    (padding : Nat) {i : Nat} (inside : i < record.lineCount)
    (hidden : i ∉ file.renderedLines.map (·.index)) :
    Rich.hiddenLineSteps (base.numberedFrom first) options padding file record.encoded i =
      (record.lineRows options first (diagnostic.labelsIn file.id) i).map (Step.row padding) := by
  have unshown : ∀ label ∈ diagnostic.labelsIn file.id, ¬ record.Shows options label i := by
    intro label given shows
    exact hidden ((h.mem_index_renderedLines i).mpr ⟨label, given, shows⟩)
  rw [Rich.hiddenLineSteps, h.held.lineRange_eq, record.lineRange_of_lt inside]
  simp only
  rw [h.brackets_line? inside, h.lineSteps_eq padding inside, FileRecord.lineRows,
    FileRecord.marksAt_eq_nil unshown]
  rfl

/-!
# The steps of a snippet
-/

theorem mem_lines_of_suffix {lines front : List PlannedLine} {line : PlannedLine}
    (suffix : file.renderedLines = front ++ lines) (member : line ∈ lines) :
    line ∈ file.lines := by
  have shown : line ∈ file.renderedLines := by
    rw [suffix]
    exact List.mem_append_right front member
  exact (List.mem_filter.mp shown).1

/-- No line between two neighbours is shown. -/
theorem not_mem_between (h : FileOf base options first diagnostic file record)
    {front rest : List PlannedLine} {line next : PlannedLine}
    (suffix : file.renderedLines = front ++ line :: next :: rest) {i : Nat}
    (above : line.index < i) (below : i < next.index) :
    i ∉ file.renderedLines.map (·.index) := by
  have sorted := List.pairwise_map.mpr h.pairwise_renderedLines
  have neighbours : [line.index, next.index] <:+: file.renderedLines.map (·.index) := by
    rw [suffix]
    exact ⟨front.map (·.index), rest.map (·.index), by simp⟩
  intro listed
  rcases Snippet.le_or_le_of_mem sorted neighbours listed with before | after
  · omega
  · omega

theorem betweenSteps_eq (h : FileOf base options first diagnostic file record) (padding : Nat)
    {front rest : List PlannedLine} {line next : PlannedLine}
    (suffix : file.renderedLines = front ++ line :: next :: rest) :
    Rich.betweenSteps (base.numberedFrom first) options padding file record.encoded line next =
      (if next.index = line.index + 2 then
          record.lineRows options first (diagnostic.labelsIn file.id) (line.index + 1)
        else if line.index + 2 < next.index then
          [record.gapRow options first (diagnostic.labelsIn file.id) next.index]
        else []).map (Step.row padding) := by
  have member := mem_lines_of_suffix suffix (List.mem_cons_of_mem line List.mem_cons_self)
  have inside := h.lt_lineCount member
  rw [Rich.betweenSteps]
  split
  · rename_i double
    have hidden := h.not_mem_between suffix (Nat.lt_succ_self line.index) (by omega)
    rw [h.hiddenLineSteps_eq padding (by omega) hidden]
  · split
    · have brackets : next.brackets =
          record.entriesAt options first (diagnostic.labelsIn file.id) next.index := by
        rw [h.line_eq member]
        rfl
      rw [brackets, h.columns_eq]
      rfl
    · rfl

theorem linesSteps_suffix (h : FileOf base options first diagnostic file record) (padding : Nat)
    {lines front : List PlannedLine} (suffix : file.renderedLines = front ++ lines) :
    Rich.linesSteps (base.numberedFrom first) options padding file record.encoded lines =
      (record.snippetRows options first (diagnostic.labelsIn file.id)
        (lines.map (·.index))).map (Step.row padding) := by
  -- What is drawn between two lines depends on the lines before them being all that are shown.
  induction lines generalizing front with
  | nil => rfl
  | cons line rest ih =>
      have this := h.plannedLineSteps_eq padding (mem_lines_of_suffix suffix List.mem_cons_self)
      have extended : file.renderedLines = (front ++ [line]) ++ rest := by
        rw [suffix, List.append_assoc, List.singleton_append]
      have tail := ih extended
      cases rest with
      | nil =>
          rw [Rich.linesSteps, this]
          simp [Rich.linesSteps, FileRecord.snippetRows, Snippet.fillGaps, Snippet.weave]
      | cons next rest =>
          rw [Rich.linesSteps, this, tail]
          have between := h.betweenSteps_eq padding suffix
          rcases Snippet.fillGaps_cons next.index (rest.map (·.index)) with ⟨others, filled⟩
          simp only [between, FileRecord.snippetRows, List.map_cons, Snippet.fillGaps, filled]
          by_cases double : next.index = line.index + 2
          · have near : ¬ line.index + 2 < line.index + 1 := by omega
            have nearer : ¬ line.index + 1 + 2 < next.index := by omega
            simp only [if_pos double, Snippet.weave, if_neg near, if_neg nearer, List.append_nil,
              List.map_append, List.append_assoc]
          · simp only [if_neg double, Snippet.weave, List.map_append, List.append_assoc]

/-- The steps of all shown lines of a file and of what stands between them. -/
theorem linesSteps_eq (h : FileOf base options first diagnostic file record) (padding : Nat) :
    Rich.linesSteps (base.numberedFrom first) options padding file record.encoded
        file.renderedLines =
      (record.snippetRows options first (diagnostic.labelsIn file.id)
        (file.renderedLines.map (·.index))).map (Step.row padding) :=
  h.linesSteps_suffix padding (List.nil_append _).symm

theorem lines_ne_nil (h : FileOf base options first diagnostic file record) :
    file.lines ≠ [] := by
  rcases List.exists_mem_of_ne_nil _ h.labels_ne_nil with ⟨label, given⟩
  have shows : record.Shows options label (record.lineAt label.start) := Or.inl rfl
  have touched := (h.mem_index_lines _).mpr ⟨label, given, shows.touches⟩
  rcases List.mem_map.mp touched with ⟨line, member, _⟩
  exact List.ne_nil_of_mem member

theorem fileSteps_eq (h : FileOf base options first diagnostic file record) (padding : Nat)
    (isClosed : Bool) :
    Rich.fileSteps (base.numberedFrom first) options padding file isClosed =
      [.row padding (.start file.locus), Rich.emptyRow padding file] ++
        .trace (.drawing file.renderedLines.length file.lines.length file.name) ::
          (record.snippetRows options first (diagnostic.labelsIn file.id)
            (file.renderedLines.map (·.index))).map (Step.row padding) ++
        (if isClosed then [Rich.emptyRow padding file] else []) := by
  have planned : file.lines.isEmpty = false := List.isEmpty_eq_false_iff.mpr h.lines_ne_nil
  simp only [Rich.fileSteps, h.held.encoded_eq, h.linesSteps_eq padding, planned]
  rfl

theorem mem_drawn_iff (h : FileOf base options first diagnostic file record) (i : Nat) :
    i ∈ file.drawn ↔ Snippet.IsFilled (file.renderedLines.map (·.index)) i :=
  Snippet.mem_fillGaps (List.pairwise_map.mpr h.pairwise_renderedLines) i

theorem lt_lineCount_of_mem_drawn (h : FileOf base options first diagnostic file record) {i : Nat}
    (drawn : i ∈ file.drawn) : i < record.lineCount := by
  have shown : ∀ j ∈ file.renderedLines.map (·.index), j < record.lineCount := by
    intro j listed
    rcases (h.mem_index_renderedLines j).mp listed with ⟨_, _, shows⟩
    exact shows.touches.2.2
  rcases (h.mem_drawn_iff i).mp drawn with listed | ⟨j, _, this, above⟩
  · exact shown i listed
  · have bound := shown (j + 2) above
    omega

end FileOf
end Plan

/-!
# The steps of a whole view
-/

/-- Rows around the lines of a snippet: headers, notes and what sets them off. -/
def Row.isFrame : Row → Bool
  | .header _ _ _ => true
  | .blank => true
  | .start _ => true
  | .empty _ => true
  | .note _ _ => true
  | .source _ _ _ => false
  | .carets _ _ _ => false
  | .pointers _ _ => false
  | .hanging _ _ _ _ => false
  | .bracket _ _ _ _ _ => false
  | .gap _ => false

/-- The rows of the lines of one file of a plan. -/
def PlannedFile.snippetRows (base : FileBase) (options : Options) (first : Int)
    (diagnostic : Diagnostic) (file : PlannedFile) : List Row :=
  (base.recordAt file.id).snippetRows options first (diagnostic.labelsIn file.id)
    (file.renderedLines.map (·.index))

/-- The failure at which a drawing ends. -/
def Step.failure? : Step → Option Failure
  | .trace _ => none
  | .row _ _ => none
  | .fail failure => some failure

theorem Plan.FileOf.snippetRows_eq {base : FileBase} {options : Options} {first : Int}
    {diagnostic : Diagnostic} {file : PlannedFile} {record : FileRecord}
    (h : Plan.FileOf base options first diagnostic file record) :
    file.snippetRows base options first diagnostic =
      record.snippetRows options first (diagnostic.labelsIn file.id)
        (file.renderedLines.map (·.index)) := by
  rw [PlannedFile.snippetRows, h.held.recordAt_eq]

namespace View
namespace Rich

variable {base : FileBase} {options : Options} {first : Int} {diagnostic : Diagnostic}
  {α : Type} {f : Step → Option α} {padding : Nat}

theorem filterMap_fileSteps {file : PlannedFile} {record : FileRecord}
    (h : Plan.FileOf base options first diagnostic file record)
    (frame : ∀ row : Row, row.isFrame = true → f (.row padding row) = none)
    (trace : ∀ written, f (.trace written) = none) (isClosed : Bool) :
    (fileSteps (base.numberedFrom first) options padding file isClosed).filterMap f =
      (file.snippetRows base options first diagnostic).filterMap fun row =>
        f (.row padding row) := by
  have start := frame (.start file.locus) rfl
  have empty := frame (.empty (Gutter.ofLine [] file.numBrackets)) rfl
  rw [h.fileSteps_eq, h.snippetRows_eq]
  cases isClosed <;>
    simp [emptyRow, start, empty, trace, List.filterMap_map]

theorem filterMap_filesSteps {files : List PlannedFile}
    (planned : ∀ file ∈ files, ∃ record, Plan.FileOf base options first diagnostic file record)
    (frame : ∀ row : Row, row.isFrame = true → f (.row padding row) = none)
    (trace : ∀ written, f (.trace written) = none) (hasNotes : Bool) :
    (filesSteps (base.numberedFrom first) options padding hasNotes files).filterMap f =
      files.flatMap fun file =>
        (file.snippetRows base options first diagnostic).filterMap fun row =>
          f (.row padding row) := by
  induction files with
  | nil => rfl
  | cons file rest ih =>
      rw [List.forall_mem_cons] at planned
      rcases planned.1 with ⟨record, h⟩
      rw [filesSteps, List.filterMap_append, filterMap_fileSteps h frame trace, ih planned.2,
        List.flatMap_cons]

theorem filterMap_noteSteps (frame : ∀ row : Row, row.isFrame = true → f (.row padding row) = none)
    (notes : List String) : (noteSteps padding notes).filterMap f = [] := by
  rw [List.filterMap_eq_nil_iff]
  intro step member
  rcases List.mem_flatMap.mp member with ⟨note, _, listed⟩
  rcases List.mem_map.mp listed with ⟨row, drawn, rfl⟩
  rcases List.mem_map.mp drawn with ⟨line, _, rfl⟩
  exact frame _ rfl

/-- What a view picks from its rows comes from the lines of the snippets, if it picks nothing from
the rows around them. -/
theorem filterMap_steps (valid : ∀ label ∈ diagnostic.labels, label.IsValid base)
    (frame : ∀ padding (row : Row), row.isFrame = true → f (.row padding row) = none)
    (trace : ∀ written, f (.trace written) = none) :
    ∃ plan, Plan.ofDiagnostic (base.numberedFrom first) options diagnostic = .ok plan ∧
      (steps (base.numberedFrom first) options diagnostic).filterMap f =
        plan.files.flatMap fun file =>
          (file.snippetRows base options first diagnostic).filterMap fun row =>
            f (.row plan.padding row) := by
  refine ⟨_, Plan.ofDiagnostic_eq valid, ?_⟩
  have header := fun padding => frame padding (.header none diagnostic.code diagnostic.message) rfl
  have blank := fun padding => frame padding .blank rfl
  rw [steps, Plan.ofDiagnostic_eq valid]
  simp only [planSteps, List.cons_append, List.filterMap_append, List.filterMap_cons, trace,
    header, blank, filterMap_noteSteps (frame _), List.filterMap_nil, List.append_nil]
  exact filterMap_filesSteps (fun file member => Plan.fileOf_of_mem valid member) (frame _) trace _

/-- The drawing of a valid diagnostic ends with its last row. -/
theorem fail_not_mem_steps (valid : ∀ label ∈ diagnostic.labels, label.IsValid base)
    (failure : Failure) :
    Step.fail failure ∉ steps (base.numberedFrom first) options diagnostic := by
  have frame : ∀ padding (row : Row), row.isFrame = true →
      Step.failure? (.row padding row) = none := by
    intro padding row _
    rfl
  rcases filterMap_steps valid frame (fun _ => rfl) with ⟨plan, _, failures⟩
  have unfailing : (steps (base.numberedFrom first) options diagnostic).filterMap
      Step.failure? = [] := by
    rw [failures, List.flatMap_eq_nil_iff]
    intro file _
    rw [List.filterMap_eq_nil_iff]
    intro row _
    rfl
  intro member
  have reported := List.filterMap_eq_nil_iff.mp unfailing _ member
  cases reported

/-- The rows of a snippet are drawn in succession. -/
theorem infix_filesSteps {hasNotes : Bool} {files : List PlannedFile}
    (planned : ∀ file ∈ files, ∃ record, Plan.FileOf base options first diagnostic file record)
    {file : PlannedFile} (known : file ∈ files) :
    (file.snippetRows base options first diagnostic).map (Step.row padding) <:+:
      filesSteps (base.numberedFrom first) options padding hasNotes files := by
  induction files with
  | nil => cases known
  | cons head rest ih =>
      rw [List.forall_mem_cons] at planned
      rw [filesSteps]
      rcases List.mem_cons.mp known with rfl | later
      · rcases planned.1 with ⟨record, h⟩
        rw [h.fileSteps_eq, ← h.snippetRows_eq, List.append_assoc]
        exact ⟨[_, _, _], _, (List.append_assoc _ _ _)⟩
      · exact (ih planned.2 later).trans (List.suffix_append _ _).isInfix

theorem infix_steps {plan : Plan} (valid : ∀ label ∈ diagnostic.labels, label.IsValid base)
    (planned : Plan.ofDiagnostic (base.numberedFrom first) options diagnostic = .ok plan)
    {file : PlannedFile} (known : file ∈ plan.files) :
    (file.snippetRows base options first diagnostic).map (Step.row plan.padding) <:+:
      steps (base.numberedFrom first) options diagnostic := by
  have rows := @infix_filesSteps base options first diagnostic plan.padding
    (!diagnostic.notes.isEmpty) plan.files (fun _ => Plan.exists_fileOf valid planned) file known
  rw [steps, planned]
  have inside : filesSteps (base.numberedFrom first) options plan.padding
      (!diagnostic.notes.isEmpty) plan.files <:+:
        planSteps (base.numberedFrom first) options diagnostic plan :=
    ⟨[_, _], noteSteps plan.padding diagnostic.notes ++ [.row plan.padding .blank],
      (List.append_assoc _ _ _).symm⟩
  exact rows.trans inside

end Rich
end View
end SourceReport

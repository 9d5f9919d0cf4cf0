import Mathlib.Data.List.Sort
import SourceReport.Proofs.Gutters

/-!
# The layout of brackets

In the plan of a file each label over several lines has a gutter column to itself, numbered in the
order of the labels. The column holds the top of the bracket on the first line of the label, its
bottom on the last one, and a part between them on every line between. A line that need not be shown
has no other parts.
-/

namespace SourceReport

/-- The entries of a gutter column from the first line of the plan to the last, each with the index
of its line. -/
def PlannedFile.columnEntries (file : PlannedFile) (column : Nat) : List (Nat × BracketEntry) :=
  file.lines.flatMap fun line =>
    (line.brackets.filter (·.column = column)).map fun entry => (line.index, entry)

namespace FileRecord

variable (record : FileRecord) (options : Options) (first : Int) (labels : List Label)

/-- The entries of a label over several lines: its top, what is left between, and its bottom. -/
def bracketEntries (column : Nat) (label : Label) : List (Nat × BracketEntry) :=
  let start := record.lineAt label.start
  let stop := record.lineAt label.stop
  (start, ⟨column, label.style, .top (label.start - record.startOf start)⟩) ::
    (List.range' (start + 1) (stop - (start + 1))).map
      (fun i => (i, ⟨column, label.style, .left⟩)) ++
    [(stop, ⟨column, label.style, .bottom (label.stop - record.startOf stop) label.message⟩)]

/-- The brackets of a planned file are those of the labels over several lines. -/
structure LaysOut (file : PlannedFile) : Prop where
  numBrackets_eq : file.numBrackets = (record.bracketed labels).length
  lines_ascend : file.lines.Pairwise fun line next => line.index < next.index
  columns_ascend : ∀ line ∈ file.lines,
    line.brackets.Pairwise fun entry next => entry.column < next.column
  column_lt : ∀ line ∈ file.lines, ∀ entry ∈ line.brackets, entry.column < file.numBrackets
  column_eq : ∀ column label, (record.bracketed labels)[column]? = some label →
    file.columnEntries column = record.bracketEntries column label
  hidden_eq : ∀ line ∈ file.lines, line.mustRender = false →
    line.single = [] ∧ ∀ entry ∈ line.brackets, entry.part = .left

/-!
# The entries of a line
-/

theorem filter_entriesAt {column : Nat} {label : Label} (i : Nat)
    (h : (record.bracketed labels)[column]? = some label) :
    (record.entriesAt options first labels i).filter (fun entry => entry.column = column) =
      (Plan.entryAt? i column (record.placement options first label)).toList := by
  rw [entriesAt, Plan.filter_bracketEntries, bracketed_placement, List.getElem?_map, h]
  rfl

theorem pairwise_entriesAt (i : Nat) :
    (record.entriesAt options first labels i).Pairwise fun entry next =>
      entry.column < next.column := by
  rw [entriesAt, Plan.bracketEntries, List.pairwise_filterMap]
  have ascending : (Plan.bracketed (labels.map (record.placement options first))).zipIdx.Pairwise
      fun one next => one.2 < next.2 := by
    rw [← List.pairwise_map, List.zipIdx_map_snd]
    exact List.pairwise_lt_range'
  apply ascending.imp
  intro one next order entry found other placed
  have column : entry.column = one.2 := Plan.column_entryAt? found
  have beyond : other.column = next.2 := Plan.column_entryAt? placed
  omega

variable {record options first labels}

theorem column_lt_of_mem_entriesAt {i : Nat} {entry : BracketEntry}
    (h : entry ∈ record.entriesAt options first labels i) :
    entry.column < (record.bracketed labels).length := by
  rcases mem_entriesAt_iff.mp h with ⟨column, label, listed, found⟩
  rw [Plan.column_entryAt? found]
  exact (List.getElem?_eq_some_iff.mp listed).1

/-- Where no label begins or ends, the entries of a line are parts between two ends. -/
theorem part_eq_left {i : Nat} (unshown : ∀ label ∈ labels, ¬ record.Shows options label i)
    {entry : BracketEntry} (h : entry ∈ record.entriesAt options first labels i) :
    entry.part = .left := by
  rcases mem_entriesAt_iff.mp h with ⟨column, label, listed, found⟩
  have hidden := unshown label (List.mem_filter.mp (List.mem_of_getElem? listed)).1
  have start : i ≠ record.lineAt label.start := fun same => hidden (Or.inl same)
  have stop : i ≠ record.lineAt label.stop := fun same => hidden (Or.inr (Or.inl same))
  rw [Plan.entryAt?, Placement.part?, first_placement, last_placement, if_neg start,
    if_neg stop] at found
  split at found
  · cases found
    rfl
  · cases found

/-!
# The entries of a column
-/

/-- The lines of an ascending list that lie in an interval which it covers. -/
theorem filter_between {lines : List Nat} (sorted : lines.Pairwise (· < ·)) {start stop : Nat}
    (covered : ∀ i, start ≤ i → i ≤ stop → i ∈ lines) :
    lines.filter (fun i => start ≤ i ∧ i ≤ stop) = List.range' start (stop + 1 - start) := by
  apply (sorted.filter _).eq_of_mem_iff List.pairwise_lt_range'
  intro i
  rw [List.mem_filter, decide_eq_true_eq, List.mem_range'_1]
  constructor
  · rintro ⟨_, above, below⟩
    omega
  · rintro ⟨above, below⟩
    have under : i ≤ stop := by omega
    exact ⟨covered i above under, above, under⟩

theorem range'_ends {start stop : Nat} (h : start < stop) :
    List.range' start (stop + 1 - start) =
      start :: List.range' (start + 1) (stop - (start + 1)) ++ [stop] := by
  have length : stop + 1 - start = stop - (start + 1) + 1 + 1 := by omega
  have last : start + 1 + (stop - (start + 1)) = stop := by omega
  rw [length, List.range'_succ, List.range'_1_concat, last]
  rfl

/-- The entry of a label on each of its lines, and none on any other. -/
theorem filterMap_entryAt? {lines : List Nat} (sorted : lines.Pairwise (· < ·)) {label : Label}
    (several : record.lineAt label.start < record.lineAt label.stop)
    (covered : ∀ i, record.lineAt label.start ≤ i → i ≤ record.lineAt label.stop → i ∈ lines)
    (column : Nat) :
    (lines.filterMap fun i =>
        (Plan.entryAt? i column (record.placement options first label)).map (Prod.mk i)) =
      record.bracketEntries column label := by
  have inside : (lines.filterMap fun i =>
        (Plan.entryAt? i column (record.placement options first label)).map (Prod.mk i)) =
      (lines.filter fun i =>
        record.lineAt label.start ≤ i ∧ i ≤ record.lineAt label.stop).filterMap fun i =>
          (Plan.entryAt? i column (record.placement options first label)).map (Prod.mk i) := by
    rw [List.filterMap_filter]
    apply List.filterMap_congr
    intro i _
    split
    · rfl
    · rename_i apart
      rw [decide_eq_true_eq] at apart
      have outside : i < record.lineAt label.start ∨ record.lineAt label.stop < i := by omega
      rw [entryAt?_outside outside]
      rfl
  have between : (List.range' (record.lineAt label.start + 1)
        (record.lineAt label.stop - (record.lineAt label.start + 1))).filterMap (fun i =>
          (Plan.entryAt? i column (record.placement options first label)).map (Prod.mk i)) =
      (List.range' (record.lineAt label.start + 1)
        (record.lineAt label.stop - (record.lineAt label.start + 1))).map fun i =>
          (i, ⟨column, label.style, .left⟩) := by
    rw [← List.filterMap_eq_map]
    apply List.filterMap_congr
    intro i member
    rw [List.mem_range'_1] at member
    rw [entryAt?_between (by omega) (by omega)]
    rfl
  have last : ([record.lineAt label.stop].filterMap fun i =>
      (Plan.entryAt? i column (record.placement options first label)).map (Prod.mk i)) =
      [(record.lineAt label.stop, ⟨column, label.style,
        .bottom (label.stop - record.startOf (record.lineAt label.stop)) label.message⟩)] := by
    rw [List.filterMap_cons, entryAt?_last several]
    rfl
  rw [inside, filter_between sorted covered, range'_ends several, List.filterMap_append,
    List.filterMap_cons, entryAt?_first, between, last]
  rfl

end FileRecord

namespace Plan

variable {base : FileBase} {options : Options} {first : Int} {diagnostic : Diagnostic}
  {file : PlannedFile} {record : FileRecord}

theorem FileOf.brackets_eq (h : FileOf base options first diagnostic file record)
    {line : PlannedLine} (member : line ∈ file.lines) :
    line.brackets = record.entriesAt options first (diagnostic.labelsIn file.id) line.index := by
  rw [h.line_eq member]
  rfl

/-- A label over several lines touches each of them, so they are all planned. -/
theorem FileOf.mem_index_lines_of_le (h : FileOf base options first diagnostic file record)
    {label : Label} (given : label ∈ diagnostic.labelsIn file.id) {i : Nat}
    (above : record.lineAt label.start ≤ i) (below : i ≤ record.lineAt label.stop) :
    i ∈ file.lines.map (·.index) := by
  have last := record.lineAt_lt_lineCount label.stop
  have touches : record.Touches options label i := ⟨by omega, by omega, by omega⟩
  exact (h.mem_index_lines i).mpr ⟨label, given, touches⟩

theorem FileOf.columnEntries_eq (h : FileOf base options first diagnostic file record)
    {column : Nat} {label : Label}
    (listed : (record.bracketed (diagnostic.labelsIn file.id))[column]? = some label) :
    file.columnEntries column = record.bracketEntries column label := by
  have member := List.mem_of_getElem? listed
  have several := FileRecord.lineAt_start_lt_stop member
  have sorted := List.pairwise_map.mpr h.pairwise_lines
  have covered : ∀ i, record.lineAt label.start ≤ i → i ≤ record.lineAt label.stop →
      i ∈ file.lines.map (·.index) := by
    intro i above below
    exact h.mem_index_lines_of_le (List.mem_filter.mp member).1 above below
  have entries : ∀ line ∈ file.lines,
      (line.brackets.filter fun entry => entry.column = column).map (Prod.mk line.index) =
        ((entryAt? line.index column (record.placement options first label)).map
          (Prod.mk line.index)).toList := by
    intro line planned
    rw [h.brackets_eq planned, record.filter_entriesAt options first _ line.index listed,
      Option.toList_map]
  rw [PlannedFile.columnEntries, List.flatMap_congr entries, ← List.filterMap_eq_flatMap_toList,
    ← FileRecord.filterMap_entryAt? sorted several covered, List.filterMap_map]
  rfl

theorem FileOf.laysOut (h : FileOf base options first diagnostic file record) :
    record.LaysOut (diagnostic.labelsIn file.id) file where
  numBrackets_eq := by
    rw [h.numBrackets_eq, FileRecord.bracketed_placement, List.length_map]
  lines_ascend := h.pairwise_lines
  columns_ascend := by
    intro line member
    rw [h.brackets_eq member]
    exact record.pairwise_entriesAt options first _ _
  column_lt := by
    intro line member entry listed
    rw [h.brackets_eq member] at listed
    rw [h.numBrackets_eq, FileRecord.bracketed_placement, List.length_map]
    exact FileRecord.column_lt_of_mem_entriesAt listed
  column_eq := by
    intro column label listed
    exact h.columnEntries_eq listed
  hidden_eq := by
    intro line member hidden
    have unshown : ∀ label ∈ diagnostic.labelsIn file.id,
        ¬ record.Shows options label line.index := by
      intro label given shows
      rw [(h.mustRender_iff member).mpr ⟨label, given, shows⟩] at hidden
      cases hidden
    constructor
    · rw [h.line_eq member]
      exact FileRecord.marksAt_eq_nil unshown
    · intro entry listed
      rw [h.brackets_eq member] at listed
      exact FileRecord.part_eq_left unshown listed

theorem bracket_layout_exact (base : FileBase) (first : Int) (options : Options)
    (diagnostic : Diagnostic) (valid : ∀ label ∈ diagnostic.labels, label.IsValid base) :
    ∃ plan, ofDiagnostic (base.numberedFrom first) options diagnostic = .ok plan ∧
      (∀ label ∈ diagnostic.labels, ∃ file ∈ plan.files, file.id.same label.file = true) ∧
      ∀ file ∈ plan.files, ∃ record, base.Holds file.id record ∧
        record.LaysOut (diagnostic.labelsIn file.id) file := by
  refine ⟨_, ofDiagnostic_eq valid, ?_, ?_⟩
  · intro label listed
    exact exists_file valid listed
  · intro file member
    rcases fileOf_of_mem valid member with ⟨record, planned⟩
    exact ⟨record, planned.held, planned.laysOut⟩

theorem bracket_layout_exact_letters :
    (∀ label ∈ Letters.diagnostic.labels, label.IsValid Letters.base) ∧
      ∃ plan, ofDiagnostic Letters.base.lookup {} Letters.diagnostic = .ok plan ∧
        (∀ label ∈ Letters.diagnostic.labels,
          ∃ file ∈ plan.files, file.id.same label.file = true) ∧
        ∀ file ∈ plan.files, ∃ record, Letters.base.Holds file.id record ∧
          record.LaysOut (Letters.diagnostic.labelsIn file.id) file :=
  ⟨Letters.valid, bracket_layout_exact Letters.base 1 {} Letters.diagnostic Letters.valid⟩

end Plan
end SourceReport

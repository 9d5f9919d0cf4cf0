import SourceReport.Overflow
import SourceReport.Proofs.Drafts
import SourceReport.Proofs.SnippetAnchors
import SourceReport.Proofs.Snippets

/-!
# Faults of rows

A row is not drawn to its end if it asks for a text that is too long for the machine, or if it has a
number that is too long to be written. The numbers in a report count the lines of a file and the
characters of a line.
-/

namespace SourceReport

/-!
# The numbers of a row
-/

def Piece.numbers : Piece → List Int
  | .text _ => []
  | .blanks _ => []
  | .repeated _ _ => []
  | .numeral _ number => [number]
  | .locus place => [place.location.lineNumber, place.location.columnNumber]

def Event.numbers : Event → List Int
  | .write piece => piece.numbers
  | .set _ _ => []
  | .reset => []

def Row.numbers : Row → List Int
  | .header locus _ _ => locus.elim [] fun place => (Piece.locus place).numbers
  | .start locus => (Piece.locus locus).numbers
  | .source number _ _ => [number]
  | .blank => []
  | .carets _ _ _ => []
  | .pointers _ _ => []
  | .hanging _ _ _ _ => []
  | .bracket _ _ _ _ _ => []
  | .empty _ => []
  | .gap _ => []
  | .note _ _ => []

namespace Pencil

variable (pencil : Pencil)

theorem numbers_outerGutter (padding : Nat) :
    (outerGutter padding).flatMap Event.numbers = [] := by
  rw [outerGutter]
  split <;> rfl

theorem numbers_gutterCell (cell : GutterCell) :
    (pencil.gutterCell cell).flatMap Event.numbers = [] := by
  cases cell <;> rfl

theorem flatMap_eq_nil_of_forall {α : Type} {list : List α} {events : α → List Event}
    (none : ∀ item, (events item).flatMap Event.numbers = []) :
    (list.flatMap events).flatMap Event.numbers = [] := by
  rw [List.flatMap_assoc, List.flatMap_eq_nil_iff]
  intro item _
  exact none item

theorem numbers_gutter (cells : List GutterCell) :
    (pencil.gutter cells).flatMap Event.numbers = [] :=
  flatMap_eq_nil_of_forall pencil.numbers_gutterCell

theorem numbers_leftSide (padding : Nat) (cells : List GutterCell) :
    (pencil.leftSide padding cells).flatMap Event.numbers = [] := by
  rw [leftSide, List.flatMap_append, List.flatMap_append, numbers_outerGutter, numbers_gutter]
  rfl

theorem numbers_sourceCells (highlighted : Bool) (cells : List SourceCell) :
    (pencil.sourceCells highlighted cells).flatMap Event.numbers = [] := by
  induction cells generalizing highlighted with
  | nil => cases highlighted <;> rfl
  | cons cell rest ih =>
      have switch : (pencil.highlight highlighted cell.primary).flatMap Event.numbers = [] := by
        cases highlighted <;> cases cell.primary <;> rfl
      have char : (sourceText cell.placed).numbers = [] := by
        rw [sourceText]
        split <;> rfl
      rw [sourceCells, List.flatMap_append, switch, List.flatMap_cons, ih, Event.numbers, char]
      rfl

theorem numbers_caretText (cell : CaretCell) :
    (pencil.caretText cell).flatMap Event.numbers = [] := by
  rw [caretText]
  split
  · rfl
  · rfl
  · split <;> rfl

theorem numbers_caretCells (current : Option LabelStyle) (cells : List CaretCell) :
    (pencil.caretCells current cells).flatMap Event.numbers = [] := by
  induction cells generalizing current with
  | nil => cases current <;> rfl
  | cons cell rest ih =>
      rw [caretCells, List.flatMap_append, List.flatMap_append, numbers_caretText, ih]
      split
      · rfl
      · split <;> rfl

theorem numbers_pointerCell (cell : PointerCell) :
    (pencil.pointerCell cell).flatMap Event.numbers = [] := by
  rw [pointerCell]
  split <;> split <;> rfl

theorem numbers_bracketRun (stop : BracketEnd) (style : LabelStyle) (run : List Nat)
    (message : String) :
    (pencil.bracketRun stop style run message).flatMap Event.numbers = [] := by
  have strokes : (run.map fun width => Event.write (.repeated width (pencil.stroke stop))).flatMap
      Event.numbers = [] := by
    rw [List.flatMap_map, List.flatMap_eq_nil_iff]
    intro width _
    rfl
  rw [bracketRun, List.flatMap_append, List.flatMap_append, List.flatMap_append, List.flatMap_cons,
    strokes]
  split <;> rfl

theorem numbers_content (padding : Nat) (row : Row) :
    (pencil.content padding row).flatMap Event.numbers = row.numbers := by
  cases row with
  | header locus code message =>
      cases code with
      | none => cases locus <;> rfl
      | some code =>
          cases locus <;> cases empty : code.isEmpty <;> simp [content, header, empty] <;> rfl
  | blank => rfl
  | start locus =>
      rw [content, List.flatMap_append, List.flatMap_append, numbers_outerGutter]
      rfl
  | source number gutter cells =>
      rw [content, List.flatMap_append, sourceSide, List.flatMap_append, List.flatMap_append,
        numbers_gutter, numbers_sourceCells]
      rfl
  | carets gutter cells trailing =>
      have cells := pencil.numbers_caretCells none cells
      cases trailing <;>
        simp only [content, List.flatMap_append, List.flatMap_cons, numbers_leftSide, cells] <;> rfl
  | pointers gutter cells =>
      rw [content, List.flatMap_append, numbers_leftSide, List.flatMap_cons,
        flatMap_eq_nil_of_forall pencil.numbers_pointerCell]
      rfl
  | hanging gutter cells style message =>
      rw [content, List.flatMap_append, List.flatMap_append, numbers_leftSide, List.flatMap_cons,
        flatMap_eq_nil_of_forall pencil.numbers_pointerCell]
      rfl
  | bracket gutter stop style run message =>
      rw [content, List.flatMap_append, numbers_leftSide, numbers_bracketRun]
      rfl
  | empty gutter => exact pencil.numbers_leftSide padding gutter
  | gap gutter =>
      rw [content, List.flatMap_append, List.flatMap_append, numbers_outerGutter, numbers_gutter]
      rfl
  | note isFirst text =>
      rw [content, List.flatMap_append, List.flatMap_append, numbers_outerGutter]
      cases isFirst <;> rfl

theorem numbers_row (padding : Nat) (row : Row) :
    (pencil.row padding row).flatMap Event.numbers = row.numbers := by
  rw [Pencil.row, List.flatMap_append, numbers_content]
  exact List.append_nil _

end Pencil

namespace Overflow

/-!
# The faults of a row
-/

/-- The fault of a text that is too long. -/
def IsOverflow (fault : Fault) : Prop :=
  fault = .unaffordable ∨ fault = .uncountable

variable {machine : Machine} {fault : Fault}

theorem isOverflow_of_lengthFault? {length : Nat}
    (long : machine.lengthFault? length = some fault) : IsOverflow fault := by
  rw [Machine.lengthFault?] at long
  split at long
  · cases long
    exact Or.inr rfl
  · split at long
    · cases long
      exact Or.inl rfl
    · cases long

theorem ofNumber?_eq_some_iff {number : Int} :
    Fault.ofNumber? number = some fault ↔
      fault = .longNumber ∧ Digits.isWritable number = false := by
  rw [Fault.ofNumber?]
  cases Digits.isWritable number with
  | true => simp
  | false => simp [eq_comm]

theorem ofPiece?_cases {piece : Piece} (fails : piece.fault? machine = some fault) :
    IsOverflow fault ∨
      fault = .longNumber ∧ ∃ number ∈ piece.numbers, Digits.isWritable number = false := by
  cases piece with
  | text made => cases fails
  | blanks count => exact Or.inl (isOverflow_of_lengthFault? fails)
  | repeated count part =>
      rw [Piece.fault?] at fails
      split at fails
      · cases fails
        exact Or.inl (Or.inr rfl)
      · exact Or.inl (isOverflow_of_lengthFault? fails)
  | numeral width number =>
      rcases Option.or_eq_some_iff.mp fails with long | ⟨_, long⟩
      · rw [ofNumber?_eq_some_iff] at long
        exact Or.inr ⟨long.1, number, List.mem_singleton_self number, long.2⟩
      · exact Or.inl (isOverflow_of_lengthFault? long)
  | locus place =>
      right
      rcases Option.or_eq_some_iff.mp fails with long | ⟨_, long⟩
      · rw [ofNumber?_eq_some_iff] at long
        exact ⟨long.1, _, List.mem_cons_self, long.2⟩
      · rw [ofNumber?_eq_some_iff] at long
        exact ⟨long.1, _, List.mem_cons_of_mem _ (List.mem_singleton_self _), long.2⟩

/-- A row is stopped by a text that is too long, or by one of its numbers. -/
theorem ofRow?_cases {pencil : Pencil} {padding : Nat} {row : Row}
    (fails : ofRow? machine pencil padding row = some fault) :
    IsOverflow fault ∨
      fault = .longNumber ∧ ∃ number ∈ row.numbers, Digits.isWritable number = false := by
  rcases List.exists_of_findSome?_eq_some fails with ⟨event, member, fails⟩
  cases event with
  | set role style => cases fails
  | reset => cases fails
  | write piece =>
      rcases ofPiece?_cases fails with overflow | ⟨long, number, listed, unwritten⟩
      · exact Or.inl overflow
      · refine Or.inr ⟨long, number, ?_, unwritten⟩
        rw [← pencil.numbers_row padding row]
        exact List.mem_flatMap.mpr ⟨.write piece, member, listed⟩

end Overflow

/-!
# The numbers of a view
-/

namespace FileRecord

theorem columnIndex_le_length (bytes : List UInt8) (range : Int × Int) (start : 0 ≤ range.1)
    (offset : Int) : Slice.columnIndex bytes range offset ≤ bytes.length := by
  rw [Slice.columnIndex]
  split
  · exact Nat.zero_le _
  · rename_i reached
    -- The byte at which a line begins is not counted, so there is room for the end of the bytes.
    have counted := List.countP_le_length (p := fun byte => !Utf8.isContinuation byte)
      (l := (bytes.drop (max (range.1 + 1) 0).toNat).take
        (min offset (min range.2 bytes.length) + 1 - max (range.1 + 1) 0).toNat)
    rw [List.length_take, List.length_drop] at counted
    split <;> omega

/-- The number counts lines of a record, or characters of one of its lines. -/
def Counts (record : FileRecord) (number : Int) : Prop :=
  0 ≤ number ∧ number ≤ record.encoded.length + 1

variable (record : FileRecord)

theorem lineCount_le_length : record.lineCount ≤ record.encoded.length + 1 := by
  have newlines := Utf8.count_newline_encode record.source.toList
  have counted : (Utf8.encode record.source.toList).count Lines.newline ≤ _ :=
    List.count_le_length
  rw [lineCount, record.encoded_eq]
  omega

theorem counts_line {i : Nat} (inside : i < record.lineCount) : record.Counts (1 + i) := by
  have bound := record.lineCount_le_length
  rw [Counts]
  omega

theorem counts_locationAt (offset : Nat) :
    ∀ number ∈ [(record.locationAt 1 offset).lineNumber, (record.locationAt 1 offset).columnNumber],
      record.Counts number := by
  rw [List.forall_mem_cons, List.forall_mem_singleton]
  refine ⟨record.counts_line (record.lineAt_lt_lineCount offset), ?_⟩
  have column := columnIndex_le_length record.encoded
    (record.startOf (record.lineAt offset), record.startOf (record.lineAt offset + 1))
    (Int.natCast_nonneg _) offset
  simp only [locationAt, Counts]
  omega

end FileRecord

/-- The number counts something in a file of the base. -/
def FileBase.Counts (base : FileBase) (number : Int) : Prop :=
  ∃ id record, base.Holds id record ∧ record.Counts number

theorem FileBase.HasShortNumbers.isWritable_of_counts {base : FileBase}
    (short : base.HasShortNumbers) {number : Int} (counts : base.Counts number) :
    Digits.isWritable number = true := by
  rcases counts with ⟨id, record, held, natural, bounded⟩
  exact short.isWritable held natural bounded

theorem Line.numbers_of_mem_rows {tabWidth columns : Nat} {number : Int} {text : String}
    {marks : List SingleMark} {entries : List BracketEntry} {row : Row}
    (member : row ∈ rows tabWidth number text marks columns entries) :
    ∀ n ∈ row.numbers, n = number := by
  rw [rows, List.mem_append, List.mem_cons] at member
  rcases member with (source | marked) | ending
  · rw [source]
    exact List.forall_mem_singleton.mpr rfl
  · split at marked
    · cases marked
    · rw [markRows] at marked
      split at marked
      · rw [List.mem_singleton.mp marked]
        exact List.forall_mem_nil _
      · rcases List.mem_cons.mp marked with rfl | others
        · exact List.forall_mem_nil _
        · rcases List.mem_cons.mp others with rfl | hanging
          · exact List.forall_mem_nil _
          · rcases List.mem_map.mp hanging with ⟨mark, _, rfl⟩
            exact List.forall_mem_nil _
  · rcases List.mem_filterMap.mp ending with ⟨⟨entry, place⟩, _, drawn⟩
    simp only [bracketRow?] at drawn
    split at drawn
    · cases drawn
    · split at drawn
      · cases drawn
      · cases drawn
        exact List.forall_mem_nil _
    · cases drawn
      exact List.forall_mem_nil _

namespace View

variable {base : FileBase} {options : Options} {diagnostic : Diagnostic} {row : Row}

theorem numbers_of_mem_noteSteps {padding given : Nat} {notes : List String}
    (member : Step.row given row ∈ noteSteps padding notes) : row.numbers = [] := by
  rcases List.mem_flatMap.mp member with ⟨note, _, listed⟩
  rcases List.mem_map.mp listed with ⟨drawn, noted, this⟩
  rcases List.mem_map.mp noted with ⟨line, _, rfl⟩
  cases this
  rfl

namespace Rich

variable {file : PlannedFile} {record : FileRecord}

theorem counts_of_mem_snippetRows (h : Plan.FileOf base options 1 diagnostic file record)
    (member : row ∈ record.snippetRows options 1 (diagnostic.labelsIn file.id)
      (file.renderedLines.map (·.index))) : ∀ number ∈ row.numbers, base.Counts number := by
  intro number listed
  rcases Snippet.mem_weave member with ⟨i, drawn, line | ⟨_, gap⟩⟩
  · rw [Line.numbers_of_mem_rows line number listed]
    exact ⟨file.id, record, h.held, record.counts_line (h.lt_lineCount_of_mem_drawn drawn)⟩
  · rw [List.mem_singleton.mp gap] at listed
    cases listed

theorem counts_of_mem_fileSteps (h : Plan.FileOf base options 1 diagnostic file record)
    {padding given : Nat} {isClosed : Bool}
    (member : Step.row given row ∈ fileSteps (base.numberedFrom 1) options padding file isClosed) :
    ∀ number ∈ row.numbers, base.Counts number := by
  rw [h.fileSteps_eq] at member
  rcases List.mem_append.mp member with member | closing
  · rcases List.mem_append.mp member with opening | member
    · rcases List.mem_cons.mp opening with start | empty
      · cases start
        rcases h.exists_anchor with ⟨label, _, _, _, locus⟩
        intro number listed
        rw [Row.numbers, locus] at listed
        exact ⟨file.id, record, h.held, record.counts_locationAt label.start number listed⟩
      · cases List.mem_singleton.mp empty
        exact List.forall_mem_nil _
    · rcases List.mem_cons.mp member with trace | drawn
      · cases trace
      · rcases List.mem_map.mp drawn with ⟨drawn, listed, this⟩
        cases this
        exact counts_of_mem_snippetRows h listed
  · split at closing
    · cases List.mem_singleton.mp closing
      exact List.forall_mem_nil _
    · cases closing

theorem counts_of_mem_filesSteps {files : List PlannedFile}
    (planned : ∀ file ∈ files, ∃ record, Plan.FileOf base options 1 diagnostic file record)
    {padding given : Nat} {hasNotes : Bool}
    (member : Step.row given row ∈
      filesSteps (base.numberedFrom 1) options padding hasNotes files) :
    ∀ number ∈ row.numbers, base.Counts number := by
  induction files with
  | nil => cases member
  | cons file rest ih =>
      rw [List.forall_mem_cons] at planned
      rcases planned.1 with ⟨record, h⟩
      rcases List.mem_append.mp member with this | later
      · exact counts_of_mem_fileSteps h this
      · exact ih planned.2 later

theorem counts_of_mem_steps (valid : ∀ label ∈ diagnostic.labels, label.IsValid base)
    {given : Nat}
    (member : Step.row given row ∈ steps (base.numberedFrom 1) options diagnostic) :
    ∀ number ∈ row.numbers, base.Counts number := by
  rw [steps, Plan.ofDiagnostic_eq valid] at member
  simp only [planSteps, List.cons_append, List.mem_cons, List.mem_append, List.not_mem_nil,
    or_false, Step.row.injEq, reduceCtorEq, false_or] at member
  rcases member with ⟨_, header⟩ | (files | notes) | ⟨_, blank⟩
  · rw [header]
    exact List.forall_mem_nil _
  · exact counts_of_mem_filesSteps (fun _ => Plan.fileOf_of_mem valid) files
  · rw [numbers_of_mem_noteSteps notes]
    exact List.forall_mem_nil _
  · rw [blank]
    exact List.forall_mem_nil _

end Rich

theorem Short.counts_of_mem_headerSteps
    (valid : ∀ label ∈ diagnostic.labels, label.IsValid base) {given : Nat}
    (member : Step.row given row ∈ headerSteps (base.numberedFrom 1) diagnostic) :
    ∀ number ∈ row.numbers, base.Counts number := by
  rw [headerSteps] at member
  split at member
  · cases List.mem_singleton.mp member
    exact List.forall_mem_nil _
  · rcases List.mem_map.mp member with ⟨label, listed, this⟩
    rcases valid label (List.mem_filter.mp listed).1 with ⟨record, held, _⟩
    rw [headerStep, held.locus_eq] at this
    cases this
    intro number among
    exact ⟨label.file, record, held, record.counts_locationAt label.start number among⟩

theorem Short.counts_of_mem_steps (valid : ∀ label ∈ diagnostic.labels, label.IsValid base)
    {withNotes : Bool} {given : Nat}
    (member : Step.row given row ∈ steps (base.numberedFrom 1) withNotes diagnostic) :
    ∀ number ∈ row.numbers, base.Counts number := by
  rw [steps] at member
  split at member
  · cases List.mem_singleton.mp member
  · rcases List.mem_append.mp member with header | notes
    · exact counts_of_mem_headerSteps valid header
    · split at notes
      · rw [numbers_of_mem_noteSteps notes]
        exact List.forall_mem_nil _
      · cases notes

/-- The numbers in a view count lines and characters. -/
theorem counts_of_mem_steps (valid : ∀ label ∈ diagnostic.labels, label.IsValid base)
    {given : Nat} (member : Step.row given row ∈ steps base.lookup options diagnostic) :
    ∀ number ∈ row.numbers, base.Counts number := by
  rw [← FileBase.numberedFrom_one, steps] at member
  split at member
  · exact Rich.counts_of_mem_steps valid member
  · exact Short.counts_of_mem_steps valid member
  · exact Short.counts_of_mem_steps valid member

end View

/-- Drawing a valid diagnostic is stopped by a text that is too long, or by a number that counts
something in a file too long to have its numbers written. -/
theorem Overflow.isOverflow_or_longNumber {machine : Machine} {pencil : Pencil} {base : FileBase}
    {options : Options} {diagnostic : Diagnostic}
    (valid : ∀ label ∈ diagnostic.labels, label.IsValid base) {fault : Fault}
    (fails : (View.steps base.lookup options diagnostic).findSome? (ofStep? machine pencil) =
      some fault) :
    IsOverflow fault ∨ fault = .longNumber ∧ ¬ base.HasShortNumbers := by
  rcases List.exists_of_findSome?_eq_some fails with ⟨step, member, fails⟩
  cases step with
  | trace written => cases fails
  | fail failure =>
      have unfailing : Step.fail failure ∉ View.steps (base.numberedFrom 1) options diagnostic :=
        View.fail_not_mem_steps valid failure
      exact absurd member unfailing
  | row padding row =>
      rcases ofRow?_cases fails with overflow | ⟨long, number, listed, unwritten⟩
      · exact Or.inl overflow
      · refine Or.inr ⟨long, ?_⟩
        intro short
        have counts := View.counts_of_mem_steps valid member number listed
        rw [short.isWritable_of_counts counts] at unwritten
        cases unwritten

end SourceReport

import SourceReport.Proofs.Courses
import SourceReport.Proofs.Gutters

/-!
# Elision

A snippet draws its shown lines and every line that alone is missing between two of them, and a row
for each longer gap. In such a row, and beside a line that is not shown, there are the bars of the
labels that go on across it, since no label begins or ends there.
-/

namespace SourceReport
namespace Line

/-!
# Tabs
-/

/-- The text of a line with blanks for its tabs, each reaching to the next tab stop. -/
def expandTabs (tabWidth : Nat) : Nat → List Char → List Char
  | _, [] => []
  | column, c :: rest =>
      if c = '\t' then
        let blanks := if 0 < tabWidth then tabWidth - column % tabWidth else 0
        List.replicate blanks ' ' ++ expandTabs tabWidth (column + blanks) rest
      else c :: expandTabs tabWidth (column + charWidth c) rest

/-- The text that source cells are drawn with. -/
def cellsText (cells : List SourceCell) : List Char :=
  cells.flatMap fun cell => (Pencil.sourceText cell.placed).string.toList

theorem cellsText_sourceCells (tabWidth byteIndex column : Nat) (line : List Char)
    (marks : List SingleMark) (entries : List BracketEntry) :
    cellsText (sourceCells (placeFrom tabWidth byteIndex column line) marks entries) =
      expandTabs tabWidth column line := by
  induction line generalizing byteIndex column with
  | nil => rfl
  | cons c rest ih =>
      have next := ih (byteIndex + c.utf8Size) (column + widthAt tabWidth column c)
      rw [cellsText, sourceCells, List.flatMap_map] at next
      rw [cellsText, sourceCells, placeFrom, List.flatMap_map, List.flatMap_cons, next, expandTabs]
      by_cases tab : c = '\t'
      · simp only [Pencil.sourceText, widthAt, if_pos tab, Piece.string_blanks, toList_spaces]
      · simp only [Pencil.sourceText, widthAt, if_neg tab, Piece.string_text,
          String.toList_singleton]
        rfl

end Line

/-- The text that an event writes. -/
def Event.text? : Event → Option String
  | .write piece => some piece.string
  | .set _ _ => none
  | .reset => none

/-- Highlighting adds no text to what the source cells hold. -/
theorem Pencil.texts_sourceCells (pencil : Pencil) (highlighted : Bool)
    (cells : List SourceCell) :
    (pencil.sourceCells highlighted cells).filterMap Event.text? =
      cells.map fun cell => (sourceText cell.placed).string := by
  induction cells generalizing highlighted with
  | nil =>
      cases highlighted with
      | true => rfl
      | false => rfl
  | cons cell rest ih =>
      have marked : (pencil.highlight highlighted cell.primary).filterMap Event.text? = [] := by
        rw [highlight]
        split
        · rfl
        · split
          · rfl
          · rfl
      rw [sourceCells, List.filterMap_append, marked, List.nil_append,
        List.filterMap_cons_some (f := Event.text?) rfl, ih, List.map_cons]

/-!
# The source row of a line
-/

/-- A source row or the row of a gap. -/
def Row.line? : Row → Option Row
  | .source number gutter cells => some (.source number gutter cells)
  | .gap gutter => some (.gap gutter)
  | .header _ _ _ => none
  | .blank => none
  | .start _ => none
  | .carets _ _ _ => none
  | .pointers _ _ => none
  | .hanging _ _ _ _ => none
  | .bracket _ _ _ _ _ => none
  | .empty _ => none
  | .note _ _ => none

namespace Line

theorem filterMap_line?_markRows (gutter : List GutterCell) (line : List Char)
    (placed : List PlacedChar) (marks : List SingleMark) :
    (markRows gutter line placed marks).filterMap Row.line? = [] := by
  rw [List.filterMap_eq_nil_iff]
  intro row member
  rw [markRows] at member
  split at member
  · rw [List.mem_singleton.mp member]
    rfl
  · rcases List.mem_cons.mp member with this | member
    · rw [this]
      rfl
    · rcases List.mem_cons.mp member with this | member
      · rw [this]
        rfl
      · rcases List.mem_map.mp member with ⟨mark, _, rfl⟩
        rfl

theorem filterMap_line?_bracketRows (entries : List BracketEntry) (columns indent : Nat)
    (placed : List PlacedChar) :
    (bracketRows entries columns indent placed).filterMap Row.line? = [] := by
  rw [List.filterMap_eq_nil_iff]
  intro row member
  rcases List.mem_filterMap.mp member with ⟨⟨entry, place⟩, _, drawn⟩
  simp only [bracketRow?] at drawn
  split at drawn
  · cases drawn
  · split at drawn
    · cases drawn
    · cases drawn
      rfl
  · cases drawn
    rfl

theorem filterMap_line?_rows (tabWidth : Nat) (number : Int) (text : String)
    (marks : List SingleMark) (columns : Nat) (entries : List BracketEntry) :
    (rows tabWidth number text marks columns entries).filterMap Row.line? =
      [.source number (Gutter.ofSource entries columns (indent (trimTrailing text.toList)))
        (sourceCells (place tabWidth (trimTrailing text.toList)) marks entries)] := by
  rw [rows, List.cons_append, List.filterMap_cons_some (f := Row.line?) rfl, List.filterMap_append,
    filterMap_line?_bracketRows, List.append_nil]
  split
  · rfl
  · rw [filterMap_line?_markRows]

end Line

namespace FileRecord

variable (record : FileRecord) (options : Options) (first : Int) (labels : List Label)

def sourceGutter (i : Nat) : List GutterCell :=
  Gutter.ofSource (record.entriesAt options first labels i) (record.columns options first labels)
    (Line.indent (Line.trimTrailing (record.lineText i)))

def sourceCells (i : Nat) : List SourceCell :=
  Line.sourceCells (Line.place options.tabWidth (Line.trimTrailing (record.lineText i)))
    (record.marksAt options first labels i) (record.entriesAt options first labels i)

theorem filterMap_line?_lineRows (i : Nat) :
    (record.lineRows options first labels i).filterMap Row.line? =
      [.source (first + i) (record.sourceGutter options first labels i)
        (record.sourceCells options first labels i)] := by
  rw [lineRows, Line.filterMap_line?_rows, String.toList_ofList]
  rfl

/-!
# What a snippet draws
-/

/-- The rows of the lines of a snippet, where `shown` are the lines that must be rendered and
`drawn` are the lines that have a source row. -/
structure Elided (shown drawn : List Nat) (gutter : Nat → List GutterCell)
    (cells : Nat → List SourceCell) (rows : List Row) : Prop where
  ascending : drawn.Pairwise (· < ·)
  mem_drawn : ∀ i, i ∈ drawn ↔ i ∈ shown ∨ ∃ j ∈ shown, i = j + 1 ∧ j + 2 ∈ shown
  rows_eq : rows =
    Snippet.weave (fun i => [.source (first + i) (gutter i) (cells i)])
      (fun i j => [.gap (record.bars labels i j)]) drawn
  text_eq : ∀ i ∈ drawn, Line.cellsText (cells i) =
    Line.expandTabs options.tabWidth 0 (Line.trimTrailing (record.lineText i))
  gutter_eq : ∀ i ∈ drawn, i ∉ shown → gutter i = record.bars labels (i - 1) (i + 1)
  ends_eq : ∀ label ∈ labels, ∀ i j, [i, j] <:+: shown →
    ¬ (i < record.lineAt label.start ∧ record.lineAt label.start < j) ∧
      ¬ (i < record.lineAt label.stop ∧ record.lineAt label.stop < j)

variable {record options first labels} {shown : List Nat}

/-- The bars of a gap row, which are taken from the line below it. -/
theorem gapRow_eq (sorted : shown.Pairwise (· < ·))
    (starts : ∀ label ∈ labels, record.lineAt label.start ∈ shown) {i j : Nat}
    (neighbours : [i, j] <:+: Snippet.fillGaps shown) :
    record.gapRow options first labels j = .gap (record.bars labels i j) := by
  rw [gapRow, ofLine_entriesAt, bars]
  congr 1
  apply List.map_congr_left
  intro label member
  have drawn : record.lineAt label.start ∈ Snippet.fillGaps shown :=
    (Snippet.mem_fillGaps sorted _).mpr (Or.inl (starts label (List.mem_filter.mp member).1))
  have order := Snippet.pairwise_fillGaps sorted
  have apart := Snippet.le_or_le_of_mem order neighbours drawn
  have ascending : i < j := by
    have pair := order.sublist neighbours.sublist
    exact List.rel_of_pairwise_cons pair List.mem_cons_self
  -- The first line of the label is drawn, so it does not lie between the two neighbours.
  have same : (record.lineAt label.start < j ∧ j ≤ record.lineAt label.stop) =
      (record.lineAt label.start ≤ i ∧ j ≤ record.lineAt label.stop) := by
    apply propext
    constructor
    · rintro ⟨above, below⟩
      exact ⟨by omega, below⟩
    · rintro ⟨above, below⟩
      exact ⟨by omega, below⟩
  simp only [same]

/-- The bars beside a line that is not shown. -/
theorem sourceGutter_eq (starts : ∀ label ∈ labels, record.lineAt label.start ∈ shown)
    (stops : ∀ label ∈ labels, record.lineAt label.stop ∈ shown) {i : Nat} (positive : 0 < i)
    (hidden : i ∉ shown) :
    record.sourceGutter options first labels i = record.bars labels (i - 1) (i + 1) := by
  have unstarted : ∀ label ∈ labels, record.lineAt label.start ≠ i := by
    intro label given same
    rw [← same] at hidden
    exact hidden (starts label given)
  rw [sourceGutter, ofSource_eq_ofLine _ _ _ _ unstarted, ofLine_entriesAt, bars]
  apply List.map_congr_left
  intro label member
  have given := (List.mem_filter.mp member).1
  have other : record.lineAt label.stop ≠ i := by
    intro same
    rw [← same] at hidden
    exact hidden (stops label given)
  have same : (record.lineAt label.start < i ∧ i ≤ record.lineAt label.stop) =
      (record.lineAt label.start ≤ i - 1 ∧ i + 1 ≤ record.lineAt label.stop) := by
    apply propext
    omega
  simp only [same]

theorem elided_snippetRows (sorted : shown.Pairwise (· < ·))
    (starts : ∀ label ∈ labels, record.lineAt label.start ∈ shown)
    (stops : ∀ label ∈ labels, record.lineAt label.stop ∈ shown) :
    record.Elided options first labels shown (Snippet.fillGaps shown)
      (record.sourceGutter options first labels) (record.sourceCells options first labels)
      ((record.snippetRows options first labels shown).filterMap Row.line?) where
  ascending := Snippet.pairwise_fillGaps sorted
  mem_drawn := Snippet.mem_fillGaps sorted
  rows_eq := by
    rw [snippetRows, Snippet.filterMap_weave]
    simp only [filterMap_line?_lineRows]
    apply Snippet.weave_congr
    intro i j neighbours
    rw [gapRow_eq sorted starts neighbours]
    rfl
  text_eq := by
    intro i _
    exact Line.cellsText_sourceCells options.tabWidth 0 0 _ _ _
  gutter_eq := by
    intro i drawn hidden
    rcases (Snippet.mem_fillGaps sorted i).mp drawn with listed | ⟨j, _, this, _⟩
    · exact absurd listed hidden
    · exact sourceGutter_eq starts stops (by omega) hidden
  ends_eq := by
    intro label given i j neighbours
    have start := Snippet.le_or_le_of_mem sorted neighbours (starts label given)
    have stop := Snippet.le_or_le_of_mem sorted neighbours (stops label given)
    omega

end FileRecord

/-- The source row or the gap row that a step draws. -/
def Step.line? : Step → Option Row
  | .trace _ => none
  | .row _ drawn => drawn.line?
  | .fail _ => none

namespace View

theorem elision_exact (base : FileBase) (first : Int) (options : Options)
    (diagnostic : Diagnostic) (rich : options.displayStyle = .rich)
    (valid : ∀ label ∈ diagnostic.labels, label.IsValid base) :
    (∃ plan, Plan.ofDiagnostic (base.numberedFrom first) options diagnostic = .ok plan ∧
      ∃ rows : PlannedFile → List Row,
        (steps (base.numberedFrom first) options diagnostic).filterMap Step.line? =
          plan.files.flatMap rows ∧
        ∀ file ∈ plan.files, ∃ record drawn gutter cells, base.Holds file.id record ∧
          record.Elided options first (diagnostic.labelsIn file.id)
            (file.renderedLines.map (·.index)) drawn gutter cells (rows file)) ∧
      Overflow.DrawsSteps (base.numberedFrom first) options diagnostic := by
  have shown : Overflow.DrawsSteps (base.numberedFrom first) options diagnostic :=
    Overflow.drawsSteps (fail_not_mem_steps valid)
  refine ⟨?_, shown⟩
  have frame : ∀ padding (row : Row), row.isFrame = true →
      Step.line? (.row padding row) = none := by
    intro padding row around
    cases row <;> first | rfl | cases around
  rw [steps, rich]
  rcases Rich.filterMap_steps valid frame (fun _ => rfl) with ⟨plan, planned, drawn⟩
  refine ⟨plan, planned, fun file =>
    (file.snippetRows base options first diagnostic).filterMap Row.line?, drawn, ?_⟩
  rw [Plan.ofDiagnostic_eq valid] at planned
  cases planned
  intro file member
  rcases Plan.fileOf_of_mem valid member with ⟨record, known⟩
  have sorted := List.pairwise_map.mpr known.pairwise_renderedLines
  have starts : ∀ label ∈ diagnostic.labelsIn file.id,
      record.lineAt label.start ∈ file.renderedLines.map (·.index) := by
    intro label given
    exact (known.mem_index_renderedLines _).mpr ⟨label, given, Or.inl rfl⟩
  have stops : ∀ label ∈ diagnostic.labelsIn file.id,
      record.lineAt label.stop ∈ file.renderedLines.map (·.index) := by
    intro label given
    exact (known.mem_index_renderedLines _).mpr ⟨label, given, Or.inr (Or.inl rfl)⟩
  refine ⟨record, Snippet.fillGaps (file.renderedLines.map (·.index)),
    record.sourceGutter options first (diagnostic.labelsIn file.id),
    record.sourceCells options first (diagnostic.labelsIn file.id), known.held, ?_⟩
  simp only [known.snippetRows_eq]
  exact FileRecord.elided_snippetRows sorted starts stops

theorem elision_exact_letters :
    (∀ label ∈ Letters.diagnostic.labels, label.IsValid Letters.base) ∧
      ∃ plan, Plan.ofDiagnostic Letters.base.lookup {} Letters.diagnostic = .ok plan ∧
        ∃ rows : PlannedFile → List Row,
          (steps Letters.base.lookup {} Letters.diagnostic).filterMap Step.line? =
            plan.files.flatMap rows ∧
          ∀ file ∈ plan.files, ∃ record drawn gutter cells, Letters.base.Holds file.id record ∧
            record.Elided {} 1 (Letters.diagnostic.labelsIn file.id)
              (file.renderedLines.map (·.index)) drawn gutter cells (rows file) :=
  ⟨Letters.valid, (elision_exact Letters.base 1 {} Letters.diagnostic rfl Letters.valid).1⟩

end View
end SourceReport

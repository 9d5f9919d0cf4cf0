import Mathlib.Order.Bounds.Basic
import SourceReport.Proofs.Corners
import SourceReport.Proofs.TopBrackets

/-!
# Closing brackets

The run of a closing bracket goes on over the text before the place at which its label ends, so that
the caret at its end stands in the last column of that text. If the text has no column, the caret
stands where the run would begin, right after the gutter.
-/

namespace SourceReport
namespace Line

variable {tabWidth : Nat} {line : List Char} {offset : Nat} {left before : List Char}

/-!
# Columns before an offset
-/

/-- The columns of a source row in which the text before an offset is shown. -/
def columnsBefore (tabWidth : Nat) (line : List Char) (offset : Nat) : Set Nat :=
  fun column => ∃ one, occupant? (place tabWidth line) column = some one ∧ one.byteIndex < offset

theorem mem_columnsBefore_iff (tabWidth : Nat) (line : List Char) (offset column : Nat) :
    column ∈ columnsBefore tabWidth line offset ↔ column < columnAt tabWidth line offset := by
  have order : (place tabWidth line).Pairwise fun one next => one.byteIndex < next.byteIndex :=
    pairwise_placeFrom tabWidth 0 0 line
  rw [columnAt_eq]
  constructor
  · intro shown
    rcases shown with ⟨one, taken, earlier⟩
    rcases occupant?_eq_some_iff.mp taken with ⟨front, back, parts, _, inside⟩
    rw [parts] at order
    rw [parts, charsBefore_of_lt order (Int.ofNat_lt.mpr earlier), totalWidth_append,
      totalWidth_cons]
    omega
  · intro inside
    rcases exists_occupant?_eq inside with ⟨one, taken⟩
    rcases occupant?_eq_some_iff.mp taken with ⟨front, back, parts, reached, within⟩
    -- The characters before the offset are the first ones, so one that takes a column of theirs
    -- takes the same column of the line.
    have whole : charsBefore (place tabWidth line) offset ++
        (place tabWidth line).dropWhile (fun one => (one.byteIndex : Int) < offset) =
          place tabWidth line := by
      rw [charsBefore_eq_takeWhile order]
      exact List.takeWhile_append_dropWhile
    rw [parts, List.append_assoc, List.cons_append] at whole
    have member : one ∈ charsBefore (place tabWidth line) offset := by
      rw [parts]
      exact List.mem_append_right front List.mem_cons_self
    have earlier := of_decide_eq_true (List.mem_filter.mp member).2
    exact ⟨one, occupant?_eq_some_iff.mpr ⟨front, _, whole.symm, reached, within⟩,
      Int.ofNat_lt.mp earlier⟩

theorem columnsBefore_eq_empty_iff (tabWidth : Nat) (line : List Char) (offset : Nat) :
    columnsBefore tabWidth line offset = ∅ ↔ columnAt tabWidth line offset = 0 := by
  rw [Set.eq_empty_iff_forall_notMem]
  simp only [mem_columnsBefore_iff, Nat.not_lt]
  constructor
  · intro none
    exact Nat.le_zero.mp (none 0)
  · intro none column
    rw [none]
    exact Nat.zero_le column

/-- The text before an offset past the end of the line is the whole line. -/
theorem columnAt_of_length_le (beyond : byteLength line ≤ offset) :
    columnAt tabWidth line offset = totalWidth (place tabWidth line) := by
  have all : charsBefore (place tabWidth line) offset = place tabWidth line := by
    rw [charsBefore, List.filter_eq_self]
    intro one member
    have before := byteIndex_lt member
    rw [decide_eq_true_eq]
    omega
  rw [columnAt_eq, all]

/-!
# The caret of a closing bracket
-/

/-- Where the caret of a bracket stands that closes at an offset, if `left` is what stands to the
left of the text in the source row and `before` what stands to the left of the caret. -/
structure ClosesAt (tabWidth : Nat) (line : List Char) (offset : Nat) (left before : List Char) :
    Prop where
  column_eq : displayWidth before + 1 = displayWidth left + columnAt tabWidth line offset
  /-- The caret stands in a column of the source text exactly if it is the last one of the text
  before the offset. -/
  last_iff : ∀ column, displayWidth before = displayWidth left + column ↔
    IsGreatest (columnsBefore tabWidth line offset) column
  /-- The caret stands one column to the left of the source text exactly if the text before the
  offset has no column. -/
  empty_iff : displayWidth before + 1 = displayWidth left ↔
    columnsBefore tabWidth line offset = ∅
  /-- Past the end of the line the text before the offset is the whole line. -/
  beyond : byteLength line ≤ offset → ∀ column,
    column ∈ columnsBefore tabWidth line offset ↔ column < totalWidth (place tabWidth line)

theorem closesAt
    (column_eq : displayWidth before + 1 = displayWidth left + columnAt tabWidth line offset) :
    ClosesAt tabWidth line offset left before where
  column_eq := column_eq
  last_iff column := by
    constructor
    · intro stands
      have total : columnAt tabWidth line offset = column + 1 := by omega
      refine ⟨?_, ?_⟩
      · rw [mem_columnsBefore_iff, total]
        exact Nat.lt_succ_self column
      · intro other shown
        rw [mem_columnsBefore_iff, total] at shown
        exact Nat.le_of_lt_succ shown
    · intro greatest
      have inside := (mem_columnsBefore_iff tabWidth line offset column).mp greatest.1
      have last : columnAt tabWidth line offset - 1 ≤ column :=
        greatest.2 ((mem_columnsBefore_iff tabWidth line offset _).mpr (by omega))
      omega
  empty_iff := by rw [column_eq, Nat.add_eq_left, columnsBefore_eq_empty_iff]
  beyond outside column := by rw [mem_columnsBefore_iff, columnAt_of_length_le outside]

end Line

namespace FileRecord

variable {record : FileRecord} {options : Options} {first : Int} {labels : List Label}
  {column : Nat} {label : Label}

/-!
# The rows of a last line
-/

/-- The source row of its last line stands above the bracket row of a label, and between the two
stand only rows of the same line. -/
theorem exists_lineRows_stop_eq (h : (record.bracketed labels)[column]? = some label) {offset : Nat}
    (stop : label.stop = record.startOf (record.lineAt label.stop) + offset) :
    ∃ between gutter below,
      record.lineRows options first labels (record.lineAt label.stop) =
        record.sourceRow options first labels (record.lineAt label.stop) :: between ++
          .bracket gutter .bottom label.style
            (Line.widthsBefore (Line.place options.tabWidth
              (record.trimmedLine (record.lineAt label.stop))) offset) label.message :: below ∧
      gutter.length = (record.bracketed labels).length ∧ ∀ row ∈ between, row.isUnder = true := by
  have reach : (label.stop : Int) - record.startOf (record.lineAt label.stop) = (offset : Int) := by
    omega
  rw [lineRows_stop h, rowsUpTo, closingRow, reach]
  refine ⟨_, _, _, rfl, ?_, fun row => isUnder_of_mem_between⟩
  rw [List.length_map, List.length_zipIdx]

/-- How a source row of line `i` and the row of a bracket are printed that closes `offset` bytes
after the start of the line. -/
structure ClosesBracket (record : FileRecord) (options : Options) (pencil : Pencil) (number : Int)
    (style : LabelStyle) (message : String) (i offset padding : Nat) (numbered : List GutterCell)
    (cells : List SourceCell) (gutter : List GutterCell) (run : List Nat) : Prop where
  source_text : pencil.text padding (.source number numbered cells) =
    Event.written (pencil.sourceSide padding number numbered) ++
      ((Line.place options.tabWidth (record.trimmedLine i)).flatMap fun one =>
        (Pencil.sourceText one).string.toList) ++ ['\n']
  bracket_text : pencil.text padding (.bracket gutter .bottom style run message) =
    pencil.beforeCaret padding gutter .bottom (sumOf run) ++ (pencil.bracketCaret style).toList ++
      (if message.isEmpty then [] else ' ' :: message.toList) ++ ['\n']
  caret_width : displayWidth (pencil.bracketCaret style).toList = 1
  closesAt : Line.ClosesAt options.tabWidth (record.trimmedLine i) offset
    (Event.written (pencil.sourceSide padding number numbered))
    (pencil.beforeCaret padding gutter .bottom (sumOf run))
  /-- Without a column of text before the offset the caret follows the gutter. -/
  after_gutter : Line.columnsBefore options.tabWidth (record.trimmedLine i) offset = ∅ →
    pencil.beforeCaret padding gutter .bottom (sumOf run) =
      Event.written (pencil.leftSide padding gutter)

theorem closesBracket {pencil : Pencil} (narrow : pencil.glyphs.AreNarrow) {i offset padding : Nat}
    (room : Plan.countDigits (first + i) ≤ padding) {gutter : List GutterCell}
    (length : gutter.length = (record.bracketed labels).length) (style : LabelStyle)
    (message : String) :
    record.ClosesBracket options pencil (first + i) style message i offset padding
      (record.sourceGutter options first labels i) (record.sourceCells options first labels i) gutter
      (Line.widthsBefore (Line.place options.tabWidth (record.trimmedLine i)) offset) := by
  have same := (length_sourceGutter record options first labels i).trans length.symm
  refine ⟨Line.text_source pencil padding _ _ _ _ _, pencil.text_bracket padding gutter .bottom style
    _ message, Pencil.displayWidth_bracketCaret narrow style, ?_, ?_⟩
  · apply Line.closesAt
    rw [Line.sumOf_widthsBefore, Pencil.displayWidth_beforeCaret narrow,
      Pencil.displayWidth_sourceSide narrow room same]
    omega
  · intro none
    rw [Line.sumOf_widthsBefore, (Line.columnsBefore_eq_empty_iff _ _ _).mp none]
    exact List.append_nil _

end FileRecord

namespace Ends

/-- A label that ends at the very start of the second line. -/
def nextLine : Label :=
  ⟨.primary, .int 0, 1, 3, "up to the next line", by decide, by decide⟩

theorem nextLine_valid : ∀ label ∈ (diagnostic nextLine).labels, label.IsValid base := by
  decide +kernel

end Ends

namespace View

/-!
# All closing brackets
-/

theorem bottom_brackets_exact (base : FileBase) (first : Int) (options : Options)
    (diagnostic : Diagnostic) (pencil : Pencil) (rich : options.displayStyle = .rich)
    (valid : ∀ label ∈ diagnostic.labels, label.IsValid base)
    (narrow : pencil.glyphs.AreNarrow) :
    ∀ label ∈ diagnostic.labels, ∀ record, base.Holds label.file record →
      record.lineAt label.start < record.lineAt label.stop →
        ∃ offset padding numbered cells between gutter run,
          label.stop = record.startOf (record.lineAt label.stop) + offset ∧
          Utf8.IsCut (record.wholeLine (record.lineAt label.stop)) offset ∧
          (Row.source (first + record.lineAt label.stop) numbered cells :: between ++
              [Row.bracket gutter .bottom label.style run label.message]).map
                (Step.row padding) <:+:
            steps (base.numberedFrom first) options diagnostic ∧
          (∀ row ∈ between, row.isUnder = true) ∧
          record.ClosesBracket options pencil (first + record.lineAt label.stop) label.style
            label.message (record.lineAt label.stop) offset padding numbered cells gutter run := by
  intro label listed record held several
  have planned := @Plan.ofDiagnostic_eq base first options diagnostic valid
  have covers : record.span (record.lineAt label.stop) ∈
      (record.placement options first label).first ::
        (record.placement options first label).last ::
          (record.placement options first label).middle :=
    List.mem_cons_of_mem _ List.mem_cons_self
  have room := Plan.countDigits_le_padding valid planned listed held covers
  have drawn := Rich.infix_lineRows valid planned listed held (Or.inr (Or.inl rfl))
  have fits := (Label.isValid_iff_fitsIn held).mp (valid label listed)
  rcases Plan.exists_column listed held several with ⟨column, found⟩
  rcases record.exists_cut_of_isCut fits.2.2 with ⟨offset, stop, cut⟩
  rcases @FileRecord.exists_lineRows_stop_eq record options first _ column label found offset stop
    with ⟨between, gutter, below, rows, length, under⟩
  rw [rows, List.append_cons _ _ below, List.map_append] at drawn
  have upper := (List.prefix_append _ _).isInfix.trans drawn
  have closes := @FileRecord.closesBracket record options first _ pencil narrow _ offset _ room gutter
    length label.style label.message
  rw [steps, rich]
  exact ⟨offset, _, _, _, between, gutter, _, stop, cut, upper, under, closes⟩

theorem bottom_brackets_exact_ends :
    (∀ label ∈ (Ends.diagnostic Ends.nextLine).labels, label.IsValid Ends.base) ∧
      Line.Wide.pencil.glyphs.AreNarrow ∧
      Ends.nextLine ∈ (Ends.diagnostic Ends.nextLine).labels ∧
      Ends.base.Holds Ends.nextLine.file Ends.record ∧
      Ends.record.lineAt Ends.nextLine.start < Ends.record.lineAt Ends.nextLine.stop ∧
      ∃ offset padding numbered cells between gutter run,
        Ends.nextLine.stop = Ends.record.startOf (Ends.record.lineAt Ends.nextLine.stop) + offset ∧
        Utf8.IsCut (Ends.record.wholeLine (Ends.record.lineAt Ends.nextLine.stop)) offset ∧
        (Row.source (1 + Ends.record.lineAt Ends.nextLine.stop) numbered cells :: between ++
            [Row.bracket gutter .bottom .primary run "up to the next line"]).map
              (Step.row padding) <:+:
          steps (Ends.base.numberedFrom 1) {} (Ends.diagnostic Ends.nextLine) ∧
        (∀ row ∈ between, row.isUnder = true) ∧
        Ends.record.ClosesBracket {} Line.Wide.pencil (1 + Ends.record.lineAt Ends.nextLine.stop)
          .primary "up to the next line" (Ends.record.lineAt Ends.nextLine.stop) offset padding
          numbered cells gutter run := by
  have narrow : Line.Wide.pencil.glyphs.AreNarrow := Glyphs.areNarrow_ofSet .boxDrawing
  have listed : Ends.nextLine ∈ (Ends.diagnostic Ends.nextLine).labels :=
    List.mem_singleton.mpr rfl
  have held : Ends.base.Holds Ends.nextLine.file Ends.record := ⟨0, rfl, rfl⟩
  have several : Ends.record.lineAt Ends.nextLine.start < Ends.record.lineAt Ends.nextLine.stop := by
    decide +kernel
  exact ⟨Ends.nextLine_valid, narrow, listed, held, several,
    bottom_brackets_exact Ends.base 1 {} (Ends.diagnostic Ends.nextLine) Line.Wide.pencil rfl
      Ends.nextLine_valid narrow Ends.nextLine listed Ends.record held several⟩

example : ((((steps Ends.base.lookup {} (Ends.diagnostic Ends.nextLine)).filterMap Step.row?).map
    (Line.Wide.pencil.text 1)).drop 5).take 2 =
      ["2 │ │ cd\n".toList, "  │ ╰^ up to the next line\n".toList] := by
  decide +kernel

end View
end SourceReport

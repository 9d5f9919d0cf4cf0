import SourceReport.Proofs.BracketSpans
import SourceReport.Proofs.EmptyLabels
import SourceReport.Proofs.LineNumbers
import SourceReport.Proofs.RowWidths

/-!
# Opening brackets

The run of an opening bracket goes on through the character at which its label starts, so that the
caret at its end stands in the last column of that character. Past the end of the line there is no
such character, and the caret stands under the last one of the line as if the label started there.
-/

namespace SourceReport
namespace Line

variable {tabWidth : Nat} {line : List Char}

/-!
# Columns up to an offset
-/

theorem columnAt_eq (tabWidth : Nat) (line : List Char) (offset : Int) :
    columnAt tabWidth line offset = totalWidth (charsBefore (place tabWidth line) offset) :=
  displayWidth_sourceTexts fun _ member => (List.mem_filter.mp member).1

theorem sumOf_widthsBefore (tabWidth : Nat) (line : List Char) (offset : Int) :
    sumOf (widthsBefore (place tabWidth line) offset) = columnAt tabWidth line offset := by
  have first := charsBefore_eq_takeWhile (pairwise_placeFrom tabWidth 0 0 line) offset
  rw [columnAt_eq, place, first, widthsBefore, sumOf_map_width]

/-- Through a character a line takes the columns before it and its own ones. -/
theorem columnAt_succ {front back : List PlacedChar} {one : PlacedChar}
    (parts : place tabWidth line = front ++ one :: back) :
    columnAt tabWidth line ((one.byteIndex : Int) + 1) = totalWidth front + one.width := by
  have order : (place tabWidth line).Pairwise fun one next => one.byteIndex < next.byteIndex :=
    pairwise_placeFrom tabWidth 0 0 line
  rw [parts] at order
  have later := (List.pairwise_cons.mp (List.pairwise_append.mp order).2.1).1
  have none : charsBefore back ((one.byteIndex : Int) + 1) = [] := by
    rw [charsBefore, List.filter_eq_nil_iff]
    intro next member
    have beyond := later next member
    rw [decide_eq_true_eq]
    omega
  rw [columnAt_eq, parts, charsBefore_of_lt order (by omega), none, totalWidth_append,
    totalWidth_cons]
  rfl

/-- Through any offset past its end a line takes all its columns. -/
theorem columnAt_of_beyond {offset : Nat} (beyond : byteLength line ≤ offset) :
    columnAt tabWidth line ((offset : Int) + 1) = totalWidth (place tabWidth line) := by
  have all : charsBefore (place tabWidth line) ((offset : Int) + 1) = place tabWidth line := by
    rw [charsBefore, List.filter_eq_self]
    intro one member
    have before := byteIndex_lt member
    rw [decide_eq_true_eq]
    omega
  rw [columnAt_eq, all]

theorem totalWidth_eq_zero_iff (placed : List PlacedChar) :
    totalWidth placed = 0 ↔ ∀ one ∈ placed, one.width = 0 := by
  induction placed with
  | nil => exact ⟨fun _ => List.forall_mem_nil _, fun _ => rfl⟩
  | cons one rest ih => rw [totalWidth_cons, Nat.add_eq_zero_iff, ih, List.forall_mem_cons]

theorem totalWidth_filter_add (placed : List PlacedChar) (test : PlacedChar → Bool) :
    totalWidth (placed.filter test) + totalWidth (placed.filter fun one => !test one) =
      totalWidth placed := by
  induction placed with
  | nil => rfl
  | cons one rest ih =>
      rw [List.filter_cons, List.filter_cons, totalWidth_cons, ← ih]
      by_cases kept : test one = true
      · have dropped : ¬ (!test one) = true := by rw [kept]; exact Bool.false_ne_true
        rw [if_pos kept, if_neg dropped, totalWidth_cons, Nat.add_assoc]
      · have taken : (!test one) = true := by rw [Bool.eq_false_iff.mpr kept]; rfl
        rw [if_neg kept, if_pos taken, totalWidth_cons, Nat.add_left_comm]

/-- A line takes as many columns through two offsets exactly if the characters that begin after the
first one and not after the second one have no columns. -/
theorem columnAt_succ_eq_iff (tabWidth : Nat) (line : List Char) {start later : Nat}
    (order : start ≤ later) :
    columnAt tabWidth line ((later : Int) + 1) = columnAt tabWidth line ((start : Int) + 1) ↔
      ∀ one ∈ place tabWidth line, start < one.byteIndex → one.byteIndex ≤ later →
        one.width = 0 := by
  have split := totalWidth_filter_add (charsBefore (place tabWidth line) ((later : Int) + 1))
    fun one => (one.byteIndex : Int) < (start : Int) + 1
  have first : (charsBefore (place tabWidth line) ((later : Int) + 1)).filter
      (fun one => (one.byteIndex : Int) < (start : Int) + 1) =
        charsBefore (place tabWidth line) ((start : Int) + 1) := by
    rw [charsBefore, charsBefore, List.filter_filter]
    apply List.filter_congr
    intro one _
    rw [Bool.and_eq_left_iff_imp, decide_eq_true_eq, decide_eq_true_eq]
    omega
  rw [first] at split
  rw [columnAt_eq, columnAt_eq, ← split, Nat.add_eq_left, totalWidth_eq_zero_iff]
  constructor
  · intro narrow one member after before
    apply narrow one
    rw [List.mem_filter, charsBefore, List.mem_filter, Bool.not_eq_true', decide_eq_false_iff_not]
    exact ⟨⟨member, decide_eq_true (by omega)⟩, by omega⟩
  · intro narrow one member
    rcases List.mem_filter.mp member with ⟨listed, after⟩
    rcases List.mem_filter.mp listed with ⟨placed, before⟩
    rw [Bool.not_eq_true', decide_eq_false_iff_not] at after
    rw [decide_eq_true_eq] at before
    exact narrow one placed (by omega) (by omega)

/-!
# The caret of an opening bracket
-/

/-- Where the caret of a bracket stands that opens at an offset, if `left` is what stands to the
left of the text in the source row and `before` what stands to the left of the caret. -/
structure OpensAt (tabWidth : Nat) (line : List Char) (offset : Nat) (left before : List Char) :
    Prop where
  column_eq : displayWidth before + 1 =
    displayWidth left + columnAt tabWidth line ((offset : Int) + 1)
  /-- The caret stands in a column of the place of the offset exactly if the place is a character
  with a column. -/
  under_iff :
    (∃ column, displayWidth before = displayWidth left + column ∧
        occupant? (slots tabWidth line) column = some (slotAt tabWidth line offset)) ↔
      offset < byteLength line ∧ 0 < (slotAt tabWidth line offset).width
  /-- Past the last character the caret stands one column to the left of the place after it. -/
  beyond : byteLength line ≤ offset →
    displayWidth before + 1 = displayWidth left + totalWidth (place tabWidth line)
  /-- A bracket that opens at a later offset has its caret in the same column exactly if no
  character with a column begins after the first offset and not after the later one. -/
  alike_iff : ∀ later : Nat, offset ≤ later →
    (columnAt tabWidth line ((later : Int) + 1) = columnAt tabWidth line ((offset : Int) + 1) ↔
      ∀ one ∈ place tabWidth line, offset < one.byteIndex → one.byteIndex ≤ later → one.width = 0)

theorem slotAt_mem_place {offset : Nat} {ending : List Char}
    (cut : Utf8.IsCut (line ++ ending) offset) (inside : offset < byteLength line) :
    slotAt tabWidth line offset ∈ place tabWidth line := by
  have index := (slotAt_inside tabWidth cut inside).1
  rcases List.mem_append.mp (slotAt_mem tabWidth line offset) with placed | last
  · exact placed
  · rw [List.mem_singleton.mp last] at index
    have ends : byteLength line = offset := index
    omega

/-- All columns of the characters come before the place after them. -/
theorem totalWidth_le_of_occupant? {column : Nat}
    (taken : occupant? (slots tabWidth line) column = some (placeholder line)) :
    totalWidth (place tabWidth line) ≤ column := by
  rcases occupant?_eq_some_iff.mp taken with ⟨front, back, parts, reached, _⟩
  have order := pairwise_slots tabWidth line
  have whole : charsBefore (slots tabWidth line) (placeholder line).byteIndex =
      place tabWidth line := charsBefore_byteIndex order
  rw [parts] at order
  rw [parts, charsBefore_byteIndex order] at whole
  rw [← whole]
  exact reached

theorem opensAt {offset : Nat} {ending left before : List Char}
    (cut : Utf8.IsCut (line ++ ending) offset)
    (column_eq : displayWidth before + 1 =
      displayWidth left + columnAt tabWidth line ((offset : Int) + 1)) :
    OpensAt tabWidth line offset left before where
  column_eq := column_eq
  under_iff := by
    constructor
    · intro under
      rcases under with ⟨column, stands, taken⟩
      by_cases inside : offset < byteLength line
      · rcases occupant?_eq_some_iff.mp taken with ⟨front, back, _, reached, within⟩
        exact ⟨inside, by omega⟩
      · have beyond := Nat.le_of_not_lt inside
        rw [slotAt_beyond beyond] at taken
        have outside := totalWidth_le_of_occupant? taken
        rw [columnAt_of_beyond beyond] at column_eq
        omega
    · intro character
      rcases character with ⟨inside, wide⟩
      rcases List.append_of_mem (slotAt_mem_place cut inside) with ⟨front, back, parts⟩
      have last := columnAt_succ parts
      rw [(slotAt_inside tabWidth cut inside).1] at last
      refine ⟨totalWidth front + (slotAt tabWidth line offset).width - 1, by omega, ?_⟩
      rw [occupant?_eq_some_iff]
      refine ⟨front, back ++ [placeholder line], ?_, by omega, by omega⟩
      rw [slots, parts, List.append_assoc, List.cons_append]
  beyond outside := by rw [column_eq, columnAt_of_beyond outside]
  alike_iff _ order := columnAt_succ_eq_iff tabWidth line order

end Line

namespace FileRecord

variable {record : FileRecord} {options : Options} {first : Int} {labels : List Label}
  {column : Nat} {label : Label}

/-!
# The rows of a first line
-/

theorem length_sourceGutter (record : FileRecord) (options : Options) (first : Int)
    (labels : List Label) (i : Nat) :
    (record.sourceGutter options first labels i).length = (record.bracketed labels).length := by
  rw [sourceGutter, ofSource_entriesAt, List.length_map]

/-- The source row of its first line stands above the bracket row of a label that does not begin in
the indentation. -/
theorem exists_lineRows_eq (h : (record.bracketed labels)[column]? = some label)
    (deep : ¬ record.IsFlush label) {offset : Nat}
    (start : label.start = record.startOf (record.lineAt label.start) + offset) :
    ∃ between gutter below,
      record.lineRows options first labels (record.lineAt label.start) =
        record.sourceRow options first labels (record.lineAt label.start) :: between ++
          .bracket gutter .top label.style
            (Line.widthsBefore (Line.place options.tabWidth
              (record.trimmedLine (record.lineAt label.start))) ((offset : Int) + 1)) "" ::
              below ∧
      gutter.length = (record.bracketed labels).length := by
  have reach : (label.start : Int) - record.startOf (record.lineAt label.start) + 1 =
      (offset : Int) + 1 := by omega
  rw [lineRows_start h, rowsAbove, openingRow, if_neg deep, if_neg deep, rowsUpTo, topRow, reach]
  refine ⟨_, _, _, rfl, ?_⟩
  rw [List.length_map, List.length_zipIdx]

/-- How a source row of line `i` and the row of a bracket are printed that opens `offset` bytes after
the start of the line: `left` stands to the left of the text, and `before` to the left of the
caret. -/
structure OpensBracket (record : FileRecord) (options : Options) (pencil : Pencil)
    (style : LabelStyle) (i offset padding : Nat) (source bracket : Row) (left before : List Char) :
    Prop where
  source_text : pencil.text padding source =
    left ++ ((Line.place options.tabWidth (record.trimmedLine i)).flatMap fun one =>
      (Pencil.sourceText one).string.toList) ++ ['\n']
  bracket_text : pencil.text padding bracket =
    before ++ (pencil.bracketCaret style).toList ++ ['\n']
  caret_width : displayWidth (pencil.bracketCaret style).toList = 1
  opensAt : Line.OpensAt options.tabWidth (record.trimmedLine i) offset left before

theorem opensBracket {pencil : Pencil} (narrow : pencil.glyphs.AreNarrow) {i offset padding : Nat}
    (cut : Utf8.IsCut (record.wholeLine i) offset)
    (room : Plan.countDigits (first + i) ≤ padding) {gutter : List GutterCell}
    (length : gutter.length = (record.bracketed labels).length) (style : LabelStyle) :
    ∃ left before, record.OpensBracket options pencil style i offset padding
      (record.sourceRow options first labels i)
      (.bracket gutter .top style
        (Line.widthsBefore (Line.place options.tabWidth (record.trimmedLine i))
          ((offset : Int) + 1)) "")
      left before := by
  rcases Line.exists_eq_trimTrailing_append (record.lineText i) with ⟨trailing, text⟩
  rw [wholeLine, text, List.append_assoc, ← trimmedLine] at cut
  have same := (length_sourceGutter record options first labels i).trans length.symm
  have printed := pencil.text_bracket padding gutter .top style
    (Line.widthsBefore (Line.place options.tabWidth (record.trimmedLine i)) ((offset : Int) + 1)) ""
  have unlabelled : (if "".isEmpty then [] else ' ' :: "".toList) = ([] : List Char) := rfl
  rw [unlabelled, List.append_nil, Line.sumOf_widthsBefore] at printed
  refine ⟨_, _, Line.text_source pencil padding _ _ _ _ _, printed,
    Pencil.displayWidth_bracketCaret narrow style, ?_⟩
  apply Line.opensAt cut
  rw [Pencil.displayWidth_beforeCaret narrow, Pencil.displayWidth_sourceSide narrow room same]
  omega

end FileRecord

namespace Plan

variable {base : FileBase} {first : Int} {options : Options} {diagnostic : Diagnostic}

/-- The number of every line that a label covers fits into the padding. -/
theorem countDigits_le_padding {plan : Plan}
    (valid : ∀ label ∈ diagnostic.labels, label.IsValid base)
    (planned : ofDiagnostic (base.numberedFrom first) options diagnostic = .ok plan)
    {label : Label} (listed : label ∈ diagnostic.labels) {record : FileRecord}
    (held : base.Holds label.file record) {i : Nat}
    (covers : record.span i ∈ (record.placement options first label).first ::
      (record.placement options first label).last ::
        (record.placement options first label).middle) :
    countDigits (first + i) ≤ plan.padding := by
  rw [ofDiagnostic_eq valid] at planned
  cases planned
  have widths := (foldl_max_le_iff _ 0 _).mp (Nat.le_refl (gutterWidth (base.numberedFrom first)
    (diagnostic.labels.map (base.placed options first))))
  apply widths.2
  rw [List.mem_flatMap]
  refine ⟨base.placed options first label, List.mem_map_of_mem listed, ?_⟩
  rw [held.placed_eq, List.mem_map]
  exact ⟨record.span i, covers, rfl⟩

/-- A label over several lines has a column of its own. -/
theorem exists_column {label : Label} (listed : label ∈ diagnostic.labels) {record : FileRecord}
    (held : base.Holds label.file record)
    (several : record.lineAt label.start < record.lineAt label.stop) :
    ∃ column : Nat, (record.bracketed (diagnostic.labelsIn label.file))[column]? = some label := by
  have bracketed : label ∈ record.bracketed (diagnostic.labelsIn label.file) := by
    rw [FileRecord.bracketed, List.mem_filter, FileRecord.isSingle, Bool.not_eq_true',
      decide_eq_false_iff_not]
    have named : (label.file.same label.file) = true := (held.same_iff_of_holds held).mpr rfl
    exact ⟨List.mem_filter.mpr ⟨listed, named⟩, Nat.ne_of_lt several⟩
  exact List.mem_iff_getElem?.mp bracketed

end Plan

/-!
# Two labels at the end of a line

One label starts at the last letter of its line and the other one behind it. Both end on the next
line.
-/

namespace Ends

def record : FileRecord :=
  .of "letters" "ab\ncd\n"

def base : FileBase :=
  ⟨[record]⟩

def lastLetter : Label :=
  ⟨.primary, .int 0, 1, 4, "from the last letter", by decide, by decide⟩

def lineEnd : Label :=
  ⟨.primary, .int 0, 2, 4, "from the line end", by decide, by decide⟩

def diagnostic (label : Label) : Diagnostic where
  severity := .error
  message := "letters"
  labels := [label]

theorem lastLetter_valid : ∀ label ∈ (diagnostic lastLetter).labels, label.IsValid base := by
  decide +kernel

theorem lineEnd_valid : ∀ label ∈ (diagnostic lineEnd).labels, label.IsValid base := by
  decide +kernel

end Ends

namespace View

variable {base : FileBase} {first : Int} {options : Options} {diagnostic : Diagnostic}

/-- The rows of a line that a label shows are drawn in succession. -/
theorem Rich.infix_lineRows {plan : Plan}
    (valid : ∀ label ∈ diagnostic.labels, label.IsValid base)
    (planned : Plan.ofDiagnostic (base.numberedFrom first) options diagnostic = .ok plan)
    {label : Label} (listed : label ∈ diagnostic.labels) {record : FileRecord}
    (held : base.Holds label.file record) {i : Nat} (asked : record.Shows options label i) :
    (record.lineRows options first (diagnostic.labelsIn label.file) i).map
        (Step.row plan.padding) <:+:
      steps (base.numberedFrom first) options diagnostic := by
  rcases Plan.exists_file_of_plan valid planned listed with ⟨file, member, same⟩
  rcases Plan.exists_fileOf valid planned member with ⟨found, known⟩
  have number := (known.held.same_iff_of_holds held).mp same
  have this : found = record := (known.held.of_whole? number).unique held
  rw [this] at known
  have given : label ∈ diagnostic.labelsIn file.id := List.mem_filter.mpr ⟨listed, same⟩
  have drawn : i ∈ Snippet.fillGaps (file.renderedLines.map (·.index)) := by
    rw [Snippet.mem_fillGaps (List.pairwise_map.mpr known.pairwise_renderedLines)]
    exact Or.inl ((known.mem_index_renderedLines i).mpr ⟨label, given, asked⟩)
  have rows := record.infix_snippetRows options first (diagnostic.labelsIn file.id) drawn
  rw [← known.snippetRows_eq, Plan.labelsIn_congr valid known.held number] at rows
  exact (rows.map (Step.row _)).trans (infix_steps valid planned member)

/-!
# All opening brackets
-/

theorem top_brackets_exact (base : FileBase) (first : Int) (options : Options)
    (diagnostic : Diagnostic) (pencil : Pencil) (rich : options.displayStyle = .rich)
    (valid : ∀ label ∈ diagnostic.labels, label.IsValid base)
    (narrow : pencil.glyphs.AreNarrow) :
    ∀ label ∈ diagnostic.labels, ∀ record, base.Holds label.file record →
      record.lineAt label.start < record.lineAt label.stop → ¬ record.IsFlush label →
        ∃ offset padding numbered cells between gutter run left before,
          label.start = record.startOf (record.lineAt label.start) + offset ∧
          (Row.source (first + record.lineAt label.start) numbered cells :: between ++
              [Row.bracket gutter .top label.style run ""]).map (Step.row padding) <:+:
            steps (base.numberedFrom first) options diagnostic ∧
          record.OpensBracket options pencil label.style (record.lineAt label.start) offset padding
            (Row.source (first + record.lineAt label.start) numbered cells)
            (Row.bracket gutter .top label.style run "") left before := by
  intro label listed record held several deep
  have planned := @Plan.ofDiagnostic_eq base first options diagnostic valid
  have room := Plan.countDigits_le_padding valid planned listed held List.mem_cons_self
  have drawn := Rich.infix_lineRows valid planned listed held (Or.inl rfl)
  have fits := (Label.isValid_iff_fitsIn held).mp (valid label listed)
  rcases Plan.exists_column listed held several with ⟨column, found⟩
  rcases record.exists_cut_on_line fits with ⟨offset, start, cut⟩
  rcases @FileRecord.exists_lineRows_eq record options first _ column label found deep offset
      start with ⟨between, gutter, below, rows, length⟩
  rw [rows, List.append_cons _ _ below, List.map_append] at drawn
  have upper := (List.prefix_append _ _).isInfix.trans drawn
  rcases FileRecord.opensBracket narrow cut room length label.style with ⟨left, before, opens⟩
  rw [steps, rich]
  exact ⟨offset, _, _, _, between, gutter, _, left, before, start, upper, opens⟩

theorem top_brackets_exact_ends :
    (∀ label ∈ (Ends.diagnostic Ends.lastLetter).labels, label.IsValid Ends.base) ∧
      Line.Wide.pencil.glyphs.AreNarrow ∧
      Ends.lastLetter ∈ (Ends.diagnostic Ends.lastLetter).labels ∧
      Ends.base.Holds Ends.lastLetter.file Ends.record ∧
      Ends.record.lineAt Ends.lastLetter.start < Ends.record.lineAt Ends.lastLetter.stop ∧
      ¬ Ends.record.IsFlush Ends.lastLetter ∧
      ∃ offset padding numbered cells between gutter run left before,
        Ends.lastLetter.start =
          Ends.record.startOf (Ends.record.lineAt Ends.lastLetter.start) + offset ∧
        (Row.source (1 + Ends.record.lineAt Ends.lastLetter.start) numbered cells :: between ++
            [Row.bracket gutter .top .primary run ""]).map (Step.row padding) <:+:
          steps (Ends.base.numberedFrom 1) {} (Ends.diagnostic Ends.lastLetter) ∧
        Ends.record.OpensBracket {} Line.Wide.pencil .primary
          (Ends.record.lineAt Ends.lastLetter.start) offset padding
          (Row.source (1 + Ends.record.lineAt Ends.lastLetter.start) numbered cells)
          (Row.bracket gutter .top .primary run "") left before := by
  have narrow : Line.Wide.pencil.glyphs.AreNarrow := Glyphs.areNarrow_ofSet .boxDrawing
  have listed : Ends.lastLetter ∈ (Ends.diagnostic Ends.lastLetter).labels :=
    List.mem_singleton.mpr rfl
  have held : Ends.base.Holds Ends.lastLetter.file Ends.record := ⟨0, rfl, rfl⟩
  have several : Ends.record.lineAt Ends.lastLetter.start < Ends.record.lineAt Ends.lastLetter.stop :=
    by decide +kernel
  have deep : ¬ Ends.record.IsFlush Ends.lastLetter := by decide +kernel
  exact ⟨Ends.lastLetter_valid, narrow, listed, held, several, deep,
    top_brackets_exact Ends.base 1 {} (Ends.diagnostic Ends.lastLetter) Line.Wide.pencil rfl
      Ends.lastLetter_valid narrow Ends.lastLetter listed Ends.record held several deep⟩

/-- The label at the line end has its caret under the last letter, where the other one has it. -/
theorem top_bracket_alike_ends :
    (∀ label ∈ (Ends.diagnostic Ends.lineEnd).labels, label.IsValid Ends.base) ∧
      (∀ label ∈ (Ends.diagnostic Ends.lastLetter).labels, label.IsValid Ends.base) ∧
      (((steps Ends.base.lookup {} (Ends.diagnostic Ends.lineEnd)).filterMap Step.row?).map
          (Line.Wide.pencil.text 1)).take 5 =
        ["error: letters\n".toList, "  ┌─ letters:1:3\n".toList, "  │  \n".toList,
          "1 │   ab\n".toList, "  │ ╭──^\n".toList] ∧
      ((steps Ends.base.lookup {} (Ends.diagnostic Ends.lineEnd)).filterMap Step.row?)[4]? =
        ((steps Ends.base.lookup {} (Ends.diagnostic Ends.lastLetter)).filterMap Step.row?)[4]? := by
  refine ⟨Ends.lineEnd_valid, Ends.lastLetter_valid, ?_, ?_⟩
  · decide +kernel
  · decide +kernel

end View
end SourceReport

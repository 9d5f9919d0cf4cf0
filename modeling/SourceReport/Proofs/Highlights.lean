import SourceReport.Overflow
import SourceReport.Proofs.Characters
import SourceReport.Proofs.LineMessages
import SourceReport.Proofs.Roles
import SourceReport.Proofs.SourceRows

/-!
# Highlighted characters

A character of a source row is written in the role of a primary label if one of these labels shares
a byte with it, and in no role otherwise. The marks and bracket parts of a line test this with
offsets that count from the start of the line.
-/

namespace SourceReport

/-!
# Covered characters
-/

namespace Label

/-- The label has a byte of the range from `low` to `high`. An empty label has the byte after it. -/
def Covers (label : Label) (low high : Nat) : Prop :=
  ∃ offset, label.start ≤ offset ∧ offset < max label.stop (label.start + 1) ∧
    low ≤ offset ∧ offset < high

variable {label : Label} {low high : Nat}

theorem covers_iff (nonempty : low < high) :
    label.Covers low high ↔ label.start < high ∧ low < max label.stop (label.start + 1) := by
  constructor
  · intro covers
    rcases covers with ⟨offset, started, unstopped, reached, inside⟩
    omega
  · intro bounds
    rcases bounds with ⟨started, unstopped⟩
    exact ⟨max label.start low, by omega, by omega, by omega, by omega⟩

end Label

/-- Whether a part covers a range of its line. -/
def BracketPart.covers (range : Int × Int) : BracketPart → Bool
  | .top start => start ≤ range.1
  | .left => true
  | .bottom stop _ => range.2 ≤ stop

theorem Line.inPrimary_eq_true_iff (placed : PlacedChar) (marks : List SingleMark)
    (entries : List BracketEntry) :
    inPrimary placed marks entries = true ↔
      (∃ mark ∈ marks, mark.style = .primary ∧ overlaps mark.range placed.byteRange = true) ∨
        ∃ entry ∈ entries, entry.style = .primary ∧
          entry.part.covers placed.byteRange = true := by
  have parts : inPrimary placed marks entries =
      (marks.any (fun mark => mark.style = .primary && overlaps mark.range placed.byteRange) ||
        entries.any fun entry =>
          entry.style = .primary && entry.part.covers placed.byteRange) := rfl
  rw [parts]
  simp only [Bool.or_eq_true, List.any_eq_true, Bool.and_eq_true, decide_eq_true_eq]

namespace FileRecord

variable {record : FileRecord} {options : Options} {first : Int} {labels : List Label}

/-!
# Marks and entries of a line
-/

theorem mem_marksAt_iff {i : Nat} {mark : SingleMark} :
    mark ∈ record.marksAt options first labels i ↔
      ∃ label ∈ labels, record.isSingle label = true ∧ record.lineAt label.start = i ∧
        (record.placement options first label).singleMark = mark := by
  rw [marksAt, Plan.singleMarks, (SingleMark.perm_insertAll _).mem_iff, List.mem_map]
  constructor
  · intro listed
    rcases listed with ⟨placement, member, rfl⟩
    rcases List.mem_filter.mp member with ⟨listed, single⟩
    rcases List.mem_map.mp listed with ⟨label, given, rfl⟩
    rw [Bool.and_eq_true, decide_eq_true_eq] at single
    exact ⟨label, given, single.1, single.2, rfl⟩
  · intro marked
    rcases marked with ⟨label, given, single, line, rfl⟩
    refine ⟨record.placement options first label, ?_, rfl⟩
    rw [List.mem_filter, Bool.and_eq_true, decide_eq_true_eq]
    exact ⟨List.mem_map_of_mem given, single, line⟩

/-!
# Labels that cover a character
-/

variable {i low high : Nat}

/-- The range of a character, counted from the start of its line. -/
def rangeOn (record : FileRecord) (i low high : Nat) : Int × Int :=
  ((low : Int) - record.startOf i, (high : Int) - record.startOf i)

namespace HasCharAt

variable (options first)

/-- A label on one line covers a character if it lies on the line of the character and its mark
overlaps the character. -/
theorem singleMark_overlaps_iff (char : record.HasCharAt i low high) (h : i < record.lineCount)
    {label : Label} (single : record.isSingle label = true) :
    (record.lineAt label.start = i ∧
        overlaps (record.placement options first label).singleMark.range
          (record.rangeOn i low high) = true) ↔ label.Covers low high := by
  have lines : record.lineAt label.start = record.lineAt label.stop := of_decide_eq_true single
  have nonempty := char.nonempty
  have order := label.start_le_stop
  rw [Label.covers_iff nonempty]
  rcases Nat.lt_trichotomy (record.lineAt label.start) i with above | this | below
  · have before : label.start < record.startOf i := by
      have reached := record.startOf_le_iff h label.start
      omega
    have ended : label.stop < record.startOf i := by
      have reached := record.startOf_le_iff h label.stop
      omega
    have first := char.first_le
    constructor
    · intro overlap
      rcases overlap with ⟨same, _⟩
      omega
    · intro covers
      rcases covers with ⟨_, unstopped⟩
      omega
  · have start : (record.placement options first label).first.range.1 =
        (record.startOf i : Int) := by
      rw [← this]
      rfl
    rw [overlaps, SingleMark.range, rangeOn]
    simp only [Placement.singleMark, start, this, true_and, decide_eq_true_eq]
    show max ((label.start : Int) - record.startOf i) (low - record.startOf i) <
      min (max ((label.stop : Int) - record.startOf i) (label.start - record.startOf i + 1))
        (high - record.startOf i) ↔ _
    omega
  · have after := char.le_of_lt_lineAt below
    constructor
    · intro overlap
      rcases overlap with ⟨same, _⟩
      omega
    · intro covers
      rcases covers with ⟨started, _⟩
      omega

/-- A label over several lines covers a character if it has a part on the line of the character and
the part covers the character. -/
theorem part_covers_iff (char : record.HasCharAt i low high) (h : i < record.lineCount)
    {label : Label} (fits : label.FitsIn record) (several : record.isSingle label = false) :
    (∃ part, (record.placement options first label).part? i = some part ∧
        part.covers (record.rangeOn i low high) = true) ↔ label.Covers low high := by
  have lines : record.lineAt label.start ≠ record.lineAt label.stop := of_decide_eq_false several
  have order := record.lineAt_start_le_stop label
  have nonempty := char.nonempty
  have start := char.whole label.start fits.2.1
  have stop := char.whole label.stop fits.2.2
  have above : record.lineAt label.start < i → label.start < low := char.lt_of_lineAt_lt h
  have ended : record.lineAt label.stop < i → label.stop < low := char.lt_of_lineAt_lt h
  have below : i < record.lineAt label.start → high ≤ label.start := char.le_of_lt_lineAt
  have open_ : i < record.lineAt label.stop → high ≤ label.stop := char.le_of_lt_lineAt
  rw [Label.covers_iff nonempty, Placement.part?, first_placement, last_placement]
  by_cases top : i = record.lineAt label.start
  · have line : (record.placement options first label).first.range.1 =
        (record.startOf i : Int) := by
      rw [top]
      rfl
    rw [if_pos top, line]
    simp only [Option.some.injEq, exists_eq_left', BracketPart.covers, decide_eq_true_eq]
    show (label.start : Int) - record.startOf i ≤ low - record.startOf i ↔ _
    omega
  · rw [if_neg top]
    by_cases bottom : i = record.lineAt label.stop
    · have line : (record.placement options first label).last.range.1 =
          (record.startOf i : Int) := by
        rw [bottom]
        rfl
      rw [if_pos bottom, line]
      simp only [Option.some.injEq, exists_eq_left', BracketPart.covers, decide_eq_true_eq]
      show (high : Int) - record.startOf i ≤ label.stop - record.startOf i ↔ _
      omega
    · rw [if_neg bottom]
      by_cases within : record.lineAt label.start < i ∧ i < record.lineAt label.stop
      · rw [if_pos within]
        simp only [Option.some.injEq, exists_eq_left', BracketPart.covers, true_iff]
        omega
      · rw [if_neg within]
        simp only [reduceCtorEq, false_and, exists_false, false_iff]
        omega

/-- The marks and entries of a line find the characters that primary labels cover. -/
theorem inPrimary_iff {placed : PlacedChar}
    (char : record.HasCharAt i (record.startOf i + placed.byteIndex)
      (record.startOf i + placed.byteIndex + placed.byteLength))
    (h : i < record.lineCount) (fits : ∀ label ∈ labels, label.FitsIn record) :
    Line.inPrimary placed (record.marksAt options first labels i)
        (record.entriesAt options first labels i) = true ↔
      ∃ label ∈ labels, label.style = .primary ∧
        label.Covers (record.startOf i + placed.byteIndex)
          (record.startOf i + placed.byteIndex + placed.byteLength) := by
  have range : placed.byteRange = record.rangeOn i (record.startOf i + placed.byteIndex)
      (record.startOf i + placed.byteIndex + placed.byteLength) := by
    rw [PlacedChar.byteRange, rangeOn]
    congr 1 <;> omega
  rw [Line.inPrimary_eq_true_iff, range]
  constructor
  · intro found
    rcases found with ⟨mark, member, primary, overlap⟩ | ⟨entry, member, primary, covered⟩
    · rcases mem_marksAt_iff.mp member with ⟨label, given, single, line, rfl⟩
      have covers := (char.singleMark_overlaps_iff options first h single).mp ⟨line, overlap⟩
      exact ⟨label, given, primary, covers⟩
    · rcases mem_entriesAt_iff.mp member with ⟨column, label, listed, placed⟩
      rcases Option.map_eq_some_iff.mp placed with ⟨part, found, rfl⟩
      rcases List.mem_filter.mp (List.mem_of_getElem? listed) with ⟨given, several⟩
      rw [Bool.not_eq_true'] at several
      have whole := (char.part_covers_iff options first h
        (fits label given) several).mp ⟨part, found, covered⟩
      exact ⟨label, given, primary, whole⟩
  · intro marked
    rcases marked with ⟨label, given, primary, covers⟩
    cases single : record.isSingle label with
    | true =>
        have overlap := (char.singleMark_overlaps_iff options first h single).mpr covers
        refine Or.inl ⟨_, ?_, primary, overlap.2⟩
        exact mem_marksAt_iff.mpr ⟨label, given, single, overlap.1, rfl⟩
    | false =>
        rcases (char.part_covers_iff options first h (fits label given)
          single).mpr covers with ⟨part, found, covered⟩
        have several : label ∈ record.bracketed labels :=
          List.mem_filter.mpr ⟨given, by rw [single]; rfl⟩
        rcases List.mem_iff_getElem?.mp several with ⟨column, listed⟩
        have entry : Plan.entryAt? i column (record.placement options first label) =
            some { column, style := label.style, part } := by
          rw [Plan.entryAt?, found]
          rfl
        exact Or.inr ⟨_, mem_entriesAt_iff.mpr ⟨column, label, listed, entry⟩, primary, covered⟩

end HasCharAt

/-!
# Source rows
-/

/-- A primary label covers the character of line `i`. -/
def IsMarked (record : FileRecord) (labels : List Label) (i : Nat) (placed : PlacedChar) : Prop :=
  ∃ label ∈ labels, label.style = .primary ∧
    label.Covers (record.startOf i + placed.byteIndex)
      (record.startOf i + placed.byteIndex + placed.byteLength)

/-- The row shows the characters of line `i`, each in the role of a primary label if one of these
labels covers it and in no role otherwise. A row that ends early shows the first of them alike. -/
def Highlights (record : FileRecord) (options : Options) (first : Int) (labels : List Label)
    (i : Nat) (row : Row) : Prop :=
  ∃ gutter cells, row = .source (first + i) gutter cells ∧
    ∀ (pencil : Pencil) (padding : Nat), ∃ role : PlacedChar → Option Role,
      Event.inRoles none (pencil.row padding row) =
        Event.inRoles none (pencil.sourceSide padding (first + i) gutter) ++
          (Line.place options.tabWidth (Line.trimTrailing (record.lineText i))).map
            (fun placed => ((Pencil.sourceText placed).string, role placed)) ++
          [("\n", none)] ∧
      (∀ machine, Event.inRoles none (Overflow.rowEvents machine pencil padding row) <+:
        Event.inRoles none (pencil.row padding row)) ∧
      ∀ placed ∈ Line.place options.tabWidth (Line.trimTrailing (record.lineText i)),
        (record.IsMarked labels i placed → role placed = some (.label pencil.severity .primary)) ∧
          (¬ record.IsMarked labels i placed → role placed = none)

theorem highlights_sourceRow {i : Nat} (h : i < record.lineCount)
    (fits : ∀ label ∈ labels, label.FitsIn record) :
    record.Highlights options first labels i (record.sourceRow options first labels i) := by
  refine ⟨_, _, rfl, ?_⟩
  intro pencil padding
  refine ⟨fun placed => pencil.cellRole (Line.inPrimary placed
    (record.marksAt options first labels i) (record.entriesAt options first labels i)), ?_, ?_, ?_⟩
  · rw [sourceRow, pencil.inRoles_sourceRow, sourceCells, Line.sourceCells, List.map_map]
    rfl
  · intro machine
    exact Event.inRoles_prefix none (List.takeWhile_prefix _)
  · intro placed member
    have char := hasCharAt_of_mem_place h member
    have found := char.inPrimary_iff options first h fits
    constructor
    · intro marked
      exact congrArg pencil.cellRole (found.mpr marked)
    · intro unmarked
      have plain := Bool.eq_false_iff.mpr fun primary => unmarked (found.mp primary)
      exact congrArg pencil.cellRole plain

end FileRecord

namespace View

theorem highlights_exact (base : FileBase) (first : Int) (options : Options)
    (diagnostic : Diagnostic) (rich : options.displayStyle = .rich)
    (valid : ∀ label ∈ diagnostic.labels, label.IsValid base) :
    ∃ plan, Plan.ofDiagnostic (base.numberedFrom first) options diagnostic = .ok plan ∧
      ∃ row : PlannedFile → Nat → Row,
        (steps (base.numberedFrom first) options diagnostic).filterMap Step.source? =
          plan.files.flatMap (fun file => file.drawn.map (row file)) ∧
        ∀ file ∈ plan.files, ∃ record, base.Holds file.id record ∧
          ∀ i ∈ file.drawn, i < record.lineCount ∧
            record.Highlights options first (diagnostic.labelsIn file.id) i (row file i) := by
  rcases filterMap_source?_steps first rich valid with ⟨plan, planned, drawn⟩
  refine ⟨plan, planned, fun file => file.sourceRow base options first diagnostic, drawn, ?_⟩
  intro file member
  rcases Plan.exists_fileOf valid planned member with ⟨record, known⟩
  refine ⟨record, known.held, ?_⟩
  intro i listed
  have inside := known.lt_lineCount_of_mem_drawn listed
  refine ⟨inside, ?_⟩
  show record.Highlights options first (diagnostic.labelsIn file.id) i
    (file.sourceRow base options first diagnostic i)
  rw [known.sourceRow_eq]
  exact FileRecord.highlights_sourceRow inside known.fits

theorem highlights_exact_letters :
    (∀ label ∈ Letters.diagnostic.labels, label.IsValid Letters.base) ∧
      ∃ plan, Plan.ofDiagnostic Letters.base.lookup {} Letters.diagnostic = .ok plan ∧
        ∃ row : PlannedFile → Nat → Row,
          (steps Letters.base.lookup {} Letters.diagnostic).filterMap Step.source? =
            plan.files.flatMap (fun file => file.drawn.map (row file)) ∧
          ∀ file ∈ plan.files, ∃ record, Letters.base.Holds file.id record ∧
            ∀ i ∈ file.drawn, i < record.lineCount ∧
              record.Highlights {} 1 (Letters.diagnostic.labelsIn file.id) i (row file i) :=
  ⟨Letters.valid, highlights_exact Letters.base 1 {} Letters.diagnostic rfl Letters.valid⟩

end View
end SourceReport

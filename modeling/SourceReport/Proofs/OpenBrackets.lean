import SourceReport.Proofs.BracketSpans
import SourceReport.Proofs.Highlights

/-!
# Open brackets

From the row of its opening corner to the row of its closing corner a bracket shows its bar, with
one exception. If the opening corner stands in the indentation of the source row, the rows of the
single-line labels under it leave the column blank, and the rows of the brackets in earlier columns
that begin or end on the line draw their runs over it.
-/

namespace SourceReport

/-!
# Cells without a bar
-/

namespace GutterCell

/-- Nothing of a bracket in its column: a blank, or the run of a bracket further left. -/
inductive IsBroken : GutterCell → Prop
  | blank : IsBroken .blank
  | run (stop : BracketEnd) (style : LabelStyle) : IsBroken (.run stop style)

/-- With the box-drawing pieces a broken cell ends in a blank or in a horizontal stroke. -/
theorem IsBroken.not_showsBar {cell : GutterCell} (h : cell.IsBroken) : ¬ cell.ShowsBar := by
  intro shown
  have text := shown { glyphs := .boxDrawing, theme := .noColor, severity := .error }
  cases h with
  | blank => exact absurd text (by decide)
  | run stop style => cases stop <;> cases style <;> exact absurd text (by decide)

end GutterCell

/-- The row has such a cell in the column. -/
def Row.IsBroken (row : Row) (column : Nat) : Prop :=
  ∃ cell, row.gutter[column]? = some cell ∧ cell.IsBroken

theorem Row.IsBroken.not_showsBar {row : Row} {column : Nat} (h : row.IsBroken column) :
    ¬ row.ShowsBar column := by
  rcases h with ⟨cell, found, broken⟩
  rintro ⟨other, same, shown⟩
  rw [found] at same
  cases same
  exact broken.not_showsBar shown

theorem Line.markRows_ne_nil (gutter : List GutterCell) (line : List Char)
    (placed : List PlacedChar) (marks : List SingleMark) :
    markRows gutter line placed marks ≠ [] := by
  rw [markRows]
  split
  · exact List.cons_ne_nil _ _
  · exact List.cons_ne_nil _ _

namespace FileRecord

/-!
# What interrupts a bracket
-/

/-- Rows stand between the source row of a line and the place of a bracket row of this column: those
of the labels that lie on the line, or those of brackets in earlier columns. -/
def InterruptsAt (record : FileRecord) (labels : List Label) (column i : Nat) : Prop :=
  (∃ other ∈ labels, record.lineAt other.start = i ∧ record.lineAt other.stop = i) ∨
    ∃ earlier other, earlier < column ∧ (record.bracketed labels)[earlier]? = some other ∧
      (record.lineAt other.start = i ∧ ¬ record.IsFlush other ∨ record.lineAt other.stop = i)

variable {record : FileRecord} {options : Options} {first : Int} {labels : List Label}
  {column i : Nat} {label : Label}

theorem markRows_eq_nil_iff :
    record.markRows options first labels i = [] ↔
      ¬ ∃ other ∈ labels, record.lineAt other.start = i ∧ record.lineAt other.stop = i := by
  have drawn : record.markRows options first labels i = [] ↔
      ∀ mark, mark ∉ record.marksAt options first labels i := by
    rw [markRows, ← List.eq_nil_iff_forall_not_mem]
    split
    · rename_i unmarked
      exact ⟨fun _ => List.isEmpty_iff.mp unmarked, fun _ => rfl⟩
    · rename_i marked
      rw [List.isEmpty_iff] at marked
      exact ⟨fun absent => absurd absent (Line.markRows_ne_nil _ _ _ _),
        fun unmarked => absurd unmarked marked⟩
  rw [drawn]
  constructor
  · rintro unmarked ⟨other, given, start, stop⟩
    have single : record.isSingle other = true := decide_eq_true (start.trans stop.symm)
    exact unmarked _ (mem_marksAt_iff.mpr ⟨other, given, single, start, rfl⟩)
  · intro apart mark member
    rcases mem_marksAt_iff.mp member with ⟨other, given, single, start, _⟩
    have same : record.lineAt other.start = record.lineAt other.stop := of_decide_eq_true single
    exact apart ⟨other, given, start, same.symm.trans start⟩

/-- A label has a bracket row on a line if it ends there, or if it begins there after the
indentation. -/
theorem bind_endRow?_eq_none_iff (several : record.lineAt label.start < record.lineAt label.stop) :
    (Plan.entryAt? i column (record.placement options first label)).bind
        (record.endRow? options labels i) = none ↔
      ¬ (record.lineAt label.start = i ∧ ¬ record.IsFlush label ∨ record.lineAt label.stop = i) := by
  rcases entryAt?_cases several i column with
    ⟨_, entry⟩ | ⟨this, _⟩ | ⟨_, entry⟩ | ⟨this, _⟩
  · rw [entry]
    exact iff_of_true rfl (by omega)
  · rw [this, bind_endRow?_start]
    by_cases flush : record.IsFlush label
    · have unmet : ¬ (record.lineAt label.start = record.lineAt label.start ∧
          ¬ record.IsFlush label ∨ record.lineAt label.stop = record.lineAt label.start) := by
        rintro (opened | closed)
        · exact opened.2 flush
        · exact Nat.ne_of_gt several closed
      rw [if_pos flush]
      exact iff_of_true rfl unmet
    · rw [if_neg flush]
      exact iff_of_false (Option.some_ne_none _) fun unmet => unmet (Or.inl ⟨rfl, flush⟩)
  · rw [entry]
    exact iff_of_true rfl (by omega)
  · rw [this, bind_endRow?_stop several]
    exact iff_of_false (Option.some_ne_none _) fun unmet => unmet (Or.inr rfl)

theorem endRowsLeft_eq_nil_iff :
    record.endRowsLeft options first labels i column = [] ↔
      ¬ ∃ earlier other, earlier < column ∧ (record.bracketed labels)[earlier]? = some other ∧
        (record.lineAt other.start = i ∧ ¬ record.IsFlush other ∨
          record.lineAt other.stop = i) := by
  rw [endRowsLeft, List.filterMap_eq_nil_iff]
  constructor
  · rintro undrawn ⟨earlier, other, before, listed, ends⟩
    have several := lineAt_start_lt_stop (List.mem_of_getElem? listed)
    have unended : (Plan.entryAt? i earlier (record.placement options first other)).bind
        (record.endRow? options labels i) = none := by
      rw [Option.bind_eq_none_iff]
      intro entry placed
      have there : entry.column = earlier := Plan.column_entryAt? placed
      rw [← there] at before
      exact undrawn entry (List.mem_filter.mpr
        ⟨mem_entriesAt_iff.mpr ⟨earlier, other, listed, placed⟩, decide_eq_true before⟩)
    exact (bind_endRow?_eq_none_iff several).mp unended ends
  · intro apart entry member
    rcases List.mem_filter.mp member with ⟨member, before⟩
    rcases mem_entriesAt_iff.mp member with ⟨earlier, other, listed, placed⟩
    have several := lineAt_start_lt_stop (List.mem_of_getElem? listed)
    have there : entry.column = earlier := Plan.column_entryAt? placed
    have unended : (Plan.entryAt? i earlier (record.placement options first other)).bind
        (record.endRow? options labels i) = none := by
      apply (bind_endRow?_eq_none_iff several).mpr
      intro ends
      rw [there] at before
      exact apart ⟨earlier, other, of_decide_eq_true before, listed, ends⟩
    rw [placed] at unended
    exact unended

theorem brokenRows_ne_nil_iff :
    record.brokenRows options first labels column label ≠ [] ↔
      record.IsFlush label ∧ record.InterruptsAt labels column (record.lineAt label.start) := by
  rw [brokenRows]
  by_cases flush : record.IsFlush label
  · rw [if_pos flush, ne_eq, List.append_eq_nil_iff, markRows_eq_nil_iff, endRowsLeft_eq_nil_iff,
      InterruptsAt]
    rw [Classical.not_and_iff_not_or_not, Classical.not_not, Classical.not_not,
      and_iff_right flush]
  · rw [if_neg flush]
    exact ⟨fun absent => absurd rfl absent, fun interrupted => absurd interrupted.1 flush⟩

theorem isBroken_of_mem_brokenRows {row : Row}
    (h : (record.bracketed labels)[column]? = some label)
    (member : row ∈ record.brokenRows options first labels column label) :
    row.isUnder = true ∧ row.IsBroken column := by
  have order := lineAt_start_lt_stop (List.mem_of_getElem? h)
  rw [brokenRows] at member
  split at member
  · rcases List.mem_append.mp member with marked | left
    · have cell := getElem?_of_mem_markRows marked h
      rw [if_neg fun within => Nat.lt_irrefl _ within.1] at cell
      exact ⟨isUnder_of_mem_markRows marked, _, cell, .blank⟩
    · rcases exists_of_mem_endRowsLeft left with ⟨entry, before, stop, run, message, rfl⟩
      have cell : (record.endRow labels (record.lineAt label.start) entry stop run
          message).gutter[column]? = _ := getElem?_endRow run message h
      have apart : ¬ record.IsBeside (record.lineAt label.start) entry.column column label := by
        unfold IsBeside
        omega
      have begun : Gutter.runAt entry stop column = some (stop, entry.style) := if_pos before
      rw [cellOf, if_neg (Nat.ne_of_gt before), if_neg apart, begun] at cell
      exact ⟨rfl, _, cell, .run stop entry.style⟩
  · cases member

/-!
# From the opening corner to the closing corner
-/

/-- The rows of a file around the bracket of a label. Between the rows of its two corners `broken`
are those that do not show its bar, and `bars` are those that do. -/
structure Opens (record : FileRecord) (first : Int) (labels : List Label) (column : Nat)
    (label : Label) (rows above : List Row) (opening : Row) (broken bars : List Row)
    (closing : Row) (below : List Row) : Prop where
  rows_eq : rows = above ++ opening :: (broken ++ bars ++ closing :: below)
  corner_opening : opening.corner? column = some .top
  corner_closing : closing.corner? column = some .bottom
  corner_eq_none : ∀ row ∈ above ++ broken ++ bars ++ below, row.corner? column = none
  showsBar : ∀ row ∈ bars, row.ShowsBar column
  isBroken : ∀ row ∈ broken, row.isUnder = true ∧ row.IsBroken column
  opening_eq : record.IsFlush label →
    ∃ gutter cells, opening = .source (first + record.lineAt label.start) gutter cells
  unbroken_iff : (∀ row ∈ broken ++ bars, row.ShowsBar column) ↔
    ¬ (record.IsFlush label ∧ record.InterruptsAt labels column (record.lineAt label.start))

theorem unbroken_iff (h : (record.bracketed labels)[column]? = some label) {bars : List Row}
    (shown : ∀ row ∈ bars, row.ShowsBar column) :
    (∀ row ∈ record.brokenRows options first labels column label ++ bars, row.ShowsBar column) ↔
      ¬ (record.IsFlush label ∧
        record.InterruptsAt labels column (record.lineAt label.start)) := by
  have interrupted_iff := @brokenRows_ne_nil_iff record options first labels column label
  rw [← interrupted_iff]
  constructor
  · intro unbroken nonempty
    rcases List.exists_mem_of_ne_nil _ nonempty with ⟨row, member⟩
    exact (isBroken_of_mem_brokenRows h member).2.not_showsBar
      (unbroken row (List.mem_append_left bars member))
  · intro empty
    rw [Classical.not_not.mp empty]
    exact shown

theorem opens (h : (record.bracketed labels)[column]? = some label)
    {rows above between below : List Row}
    (rows_eq : rows = above ++ record.rowsAbove options first labels column label ++
      record.openingRow options first labels column label ::
        (record.brokenRows options first labels column label ++ between ++
          record.rowsUpTo options first labels (record.lineAt label.stop) column ++
          record.closingRow options labels column label :: below))
    (before : ∀ row ∈ above, row.corner? column = none)
    (inside : ∀ row ∈ between, row.corner? column = none ∧ row.ShowsBar column)
    (after : ∀ row ∈ below, row.corner? column = none) :
    record.Opens first labels column label rows
      (above ++ record.rowsAbove options first labels column label)
      (record.openingRow options first labels column label)
      (record.brokenRows options first labels column label)
      (between ++ record.rowsUpTo options first labels (record.lineAt label.stop) column)
      (record.closingRow options labels column label) below := by
  have order := lineAt_start_lt_stop (List.mem_of_getElem? h)
  have last : ∀ row ∈ record.rowsUpTo options first labels (record.lineAt label.stop) column,
      row.corner? column = none ∧ row.ShowsBar column := fun row member =>
    ⟨corner?_of_mem_rowsUpTo h (fun same => absurd same (Nat.ne_of_gt order)) member,
      showsBar_of_mem_rowsUpTo h order (Nat.le_refl _) member⟩
  have bars := List.forall_mem_append.mpr ⟨inside, last⟩
  refine {
    rows_eq := ?_
    corner_opening := corner?_openingRow h
    corner_closing := corner?_closingRow h
    corner_eq_none := ?_
    showsBar := fun row member => (bars row member).2
    isBroken := fun row member => isBroken_of_mem_brokenRows h member
    opening_eq := ?_
    unbroken_iff := unbroken_iff h fun row member => (bars row member).2 }
  · rw [rows_eq]
    simp only [List.append_assoc]
  · simp only [List.forall_mem_append]
    exact ⟨⟨⟨⟨before, fun row member => corner?_of_mem_rowsAbove h member⟩,
      fun row member => corner?_of_mem_brokenRows h member⟩,
      fun row member => (inside row member).1, fun row member => (last row member).1⟩, after⟩
  · intro flush
    rw [openingRow, if_pos flush]
    exact ⟨_, _, rfl⟩

end FileRecord

/-!
# A bracket that is interrupted
-/

namespace Letters

/-- A bracket opens in the indentation of the first line, which also holds a label of its own. -/
def interrupted : Diagnostic where
  severity := .error
  code := none
  message := "letters"
  labels := [all, ⟨.secondary, .int 0, 0, 1, "first letter", by decide, by decide⟩]
  notes := []

theorem interrupted_valid : ∀ label ∈ interrupted.labels, label.IsValid base := by
  decide +kernel

end Letters

namespace View

theorem open_brackets_exact (base : FileBase) (first : Int) (options : Options)
    (diagnostic : Diagnostic) (rich : options.displayStyle = .rich)
    (valid : ∀ label ∈ diagnostic.labels, label.IsValid base) :
    ∃ plan, Plan.ofDiagnostic (base.numberedFrom first) options diagnostic = .ok plan ∧
      ∃ blocks : List (List Row),
        (steps (base.numberedFrom first) options diagnostic).filterMap Step.row? =
          .header none diagnostic.code diagnostic.message ::
            (blocks.flatten ++ diagnostic.notes.flatMap noteRows ++ [.blank]) ∧
        List.Forall₂ (fun file rows => ∃ record, base.Holds file.id record ∧
          ∀ column label,
            (record.bracketed (diagnostic.labelsIn file.id))[column]? = some label →
              ∃ above opening broken bars closing below,
                record.Opens first (diagnostic.labelsIn file.id) column label rows above opening
                  broken bars closing below)
          plan.files blocks := by
  rw [steps, rich]
  apply Rich.exists_blocks valid
  intro file record isClosed known column label listed
  rcases known.exists_block_eq listed isClosed with
    ⟨above, between, below, rows_eq, before, inside, after⟩
  exact ⟨_, _, _, _, _, _, FileRecord.opens listed rows_eq before inside after⟩

theorem open_brackets_exact_letters :
    (∀ label ∈ Letters.interrupted.labels, label.IsValid Letters.base) ∧
      ∃ plan, Plan.ofDiagnostic Letters.base.lookup {} Letters.interrupted = .ok plan ∧
        ∃ blocks : List (List Row),
          (steps Letters.base.lookup {} Letters.interrupted).filterMap Step.row? =
            .header none none "letters" :: (blocks.flatten ++ [] ++ [.blank]) ∧
          List.Forall₂ (fun file rows => ∃ record, Letters.base.Holds file.id record ∧
            ∀ column label,
              (record.bracketed (Letters.interrupted.labelsIn file.id))[column]? = some label →
                ∃ above opening broken bars closing below,
                  record.Opens 1 (Letters.interrupted.labelsIn file.id) column label rows above
                    opening broken bars closing below)
            plan.files blocks :=
  ⟨Letters.interrupted_valid,
    open_brackets_exact Letters.base 1 {} Letters.interrupted rfl Letters.interrupted_valid⟩

/-- The row of the carets under the first line stands between the two corners and has no bar. -/
theorem open_bracket_interrupted_letters :
    (∀ label ∈ Letters.interrupted.labels, label.IsValid Letters.base) ∧
      ∃ opening carets closing : Row,
        ((steps Letters.base.lookup {} Letters.interrupted).filterMap Step.row?)[3]? =
          some opening ∧ opening.corner? 0 = some .top ∧
        ((steps Letters.base.lookup {} Letters.interrupted).filterMap Step.row?)[4]? =
          some carets ∧ ¬ carets.ShowsBar 0 ∧
        ((steps Letters.base.lookup {} Letters.interrupted).filterMap Step.row?)[11]? =
          some closing ∧ closing.corner? 0 = some .bottom := by
  refine ⟨Letters.interrupted_valid,
    .source 1 [.corner .top .primary] [⟨⟨'a', 0, 1, 1⟩, true⟩],
    .carets [.blank] [⟨some .secondary, 1, true⟩, ⟨none, 1, false⟩]
      (some (.secondary, "first letter")),
    .bracket [.corner .bottom .primary] .bottom .primary [1] "all letters",
    ?_, rfl, ?_, ?_, ?_, rfl⟩
  · decide +kernel
  · decide +kernel
  · have broken : Row.IsBroken (.carets [.blank] [⟨some .secondary, 1, true⟩, ⟨none, 1, false⟩]
        (some (.secondary, "first letter"))) 0 := ⟨.blank, rfl, .blank⟩
    exact broken.not_showsBar
  · decide +kernel

end View
end SourceReport

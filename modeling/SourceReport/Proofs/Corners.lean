import SourceReport.Proofs.BracketSpans
import SourceReport.Proofs.Courses

/-!
# Corners

Of all the rows that are drawn for a file, one has the opening corner of a bracket and one has its
closing corner. A corner stands in the indentation of the source row, or it stands in a bracket row
under it, where the run goes on over every column to the right, up to the caret at its end.
-/

namespace SourceReport

/-!
# Runs
-/

/-- The cell carries on the run of a bracket row, across the bar of another bracket if there is one
in its column. -/
inductive GutterCell.Continues (stop : BracketEnd) (style : LabelStyle) : GutterCell → Prop
  | run : Continues stop style (.run stop style)
  | crossing (other : LabelStyle) : Continues stop style (.crossing style other)

/-- What is written between a corner and the caret of its row. -/
def Pencil.IsStroke (pencil : Pencil) (stop : BracketEnd) (text : String) : Prop :=
  text = pencil.glyphs.bar ∨ ∃ count,
    text = repeated count (pencil.stroke stop) ∨ text = repeated count pencil.glyphs.topStroke

/-- A bracket row with its corner in the given column, from which the run goes on over the other
columns and then, with nothing in between, to the caret. -/
def Row.RunsFrom (row : Row) (column columns : Nat) (stop : BracketEnd) (style : LabelStyle) :
    Prop :=
  ∃ left right run message,
    row = .bracket (left ++ .corner stop style :: right) stop style run message ∧
      left.length = column ∧ (left ++ .corner stop style :: right).length = columns ∧
      (∀ cell ∈ right, cell.Continues stop style) ∧
      ∀ (pencil : Pencil) (padding : Nat), ∃ strokes after,
        (pencil.row padding row).filterMap Event.text? =
          (pencil.leftSide padding left).filterMap Event.text? ++
            " " :: pencil.corner stop :: strokes ++ pencil.bracketCaret style :: after ∧
        ∀ text ∈ strokes, pencil.IsStroke stop text

namespace Pencil

variable (pencil : Pencil) {stop : BracketEnd} {style : LabelStyle}

theorem isStroke_stroke (stop : BracketEnd) : pencil.IsStroke stop pencil.glyphs.topStroke := by
  refine Or.inr ⟨1, Or.inr ?_⟩
  rw [repeated, List.replicate_one, String.join_cons, String.join_nil, String.append_empty]

theorem isStroke_of_continues {cell : GutterCell} (h : cell.Continues stop style) :
    ∀ text ∈ (pencil.gutterCell cell).filterMap Event.text?, pencil.IsStroke stop text := by
  intro text written
  cases h with
  | run =>
      have twice : text = repeated 2 (pencil.stroke stop) := List.mem_singleton.mp written
      exact Or.inr ⟨2, Or.inl twice⟩
  | crossing other =>
      have pieces : text ∈ [pencil.glyphs.topStroke, pencil.glyphs.bar] := written
      rcases List.mem_cons.mp pieces with rfl | last
      · exact pencil.isStroke_stroke stop
      · exact Or.inl (List.mem_singleton.mp last)

theorem texts_run (stop : BracketEnd) (run : List Nat) :
    (run.map fun width => Event.write (.repeated width (pencil.stroke stop))).filterMap
        Event.text? = run.map fun width => repeated width (pencil.stroke stop) := by
  rw [List.filterMap_map]
  exact congrFun List.filterMap_eq_map run

theorem exists_texts_bracket (padding : Nat) {left right : List GutterCell}
    (continues : ∀ cell ∈ right, cell.Continues stop style) (run : List Nat) (message : String) :
    ∃ strokes after,
      (pencil.row padding (.bracket (left ++ .corner stop style :: right) stop style run
          message)).filterMap Event.text? =
        (pencil.leftSide padding left).filterMap Event.text? ++
          " " :: pencil.corner stop :: strokes ++ pencil.bracketCaret style :: after ∧
      ∀ text ∈ strokes, pencil.IsStroke stop text := by
  refine ⟨(pencil.gutter right).filterMap Event.text? ++
      run.map (fun width => repeated width (pencil.stroke stop)),
    (if message.isEmpty then [] else [" " ++ message]) ++ ["\n"], ?_, ?_⟩
  · rw [row, content, leftSide, leftSide, gutter, gutter, gutter, List.flatMap_append,
      List.flatMap_cons, bracketRun]
    split
    · simp [gutterCell, inLabel, within, set, setLabel, List.filterMap_cons, texts_run,
        -List.filterMap_map, Event.text?]
    · simp [gutterCell, inLabel, within, set, setLabel, List.filterMap_cons, texts_run,
        -List.filterMap_map, Event.text?]
  · intro text written
    rcases List.mem_append.mp written with beside | this
    · rw [gutter, List.filterMap_flatMap] at beside
      rcases List.mem_flatMap.mp beside with ⟨cell, member, piece⟩
      exact pencil.isStroke_of_continues (continues cell member) text piece
    · rcases List.mem_map.mp this with ⟨width, _, rfl⟩
      exact Or.inr ⟨width, Or.inl rfl⟩

end Pencil

/-!
# One row for each end
-/

/-- The row belongs to the line with this number and stands under its source row. -/
def Row.StandsUnder (row : Row) (number : Int) (rows : List Row) : Prop :=
  ∃ above gutter cells between below,
    rows = above ++ .source number gutter cells :: (between ++ row :: below) ∧
      ∀ other ∈ between ++ [row], other.isUnder = true

theorem Row.corner?_ne {row : Row} {column : Nat} {stop : BracketEnd}
    (h : row.corner? column = none) : row.corner? column ≠ some stop := by
  rw [h]
  exact nofun

/-- The rows that have an end of a bracket in a gutter column. -/
def cornerRows (rows : List Row) (column : Nat) (stop : BracketEnd) : List Row :=
  rows.filter fun row => row.corner? column = some stop

theorem cornerRows_eq_nil {rows : List Row} {column : Nat} {stop : BracketEnd}
    (h : ∀ row ∈ rows, row.corner? column ≠ some stop) : cornerRows rows column stop = [] := by
  rw [cornerRows, List.filter_eq_nil_iff]
  intro row member found
  exact h row member (of_decide_eq_true found)

theorem cornerRows_eq_singleton {row : Row} {column : Nat} {stop : BracketEnd}
    {above below : List Row} (corner : row.corner? column = some stop)
    (before : ∀ other ∈ above, other.corner? column ≠ some stop)
    (after : ∀ other ∈ below, other.corner? column ≠ some stop) :
    cornerRows (above ++ row :: below) column stop = [row] := by
  have here : cornerRows (row :: below) column stop = row :: cornerRows below column stop :=
    List.filter_cons_of_pos (decide_eq_true corner)
  have split : cornerRows (above ++ row :: below) column stop =
      cornerRows above column stop ++ cornerRows (row :: below) column stop :=
    List.filter_append above (row :: below)
  rw [split, cornerRows_eq_nil before, here, cornerRows_eq_nil after]
  rfl

namespace FileRecord

/-- The two ends of a label's bracket among the rows of its file: each has one row, and the opening
corner stands in the indentation of the source row if the label begins there. -/
structure DrawsEnds (record : FileRecord) (first : Int) (labels : List Label) (rows : List Row)
    (column : Nat) (label : Label) : Prop where
  opened : ∃ row, cornerRows rows column .top = [row] ∧
    (record.IsFlush label → ∃ gutter cells,
      row = .source (first + record.lineAt label.start) gutter cells ∧
        gutter[column]? = some (.corner .top label.style)) ∧
    (¬ record.IsFlush label →
      row.StandsUnder (first + record.lineAt label.start) rows ∧
        row.RunsFrom column (record.bracketed labels).length .top label.style)
  closed : ∃ row, cornerRows rows column .bottom = [row] ∧
    row.StandsUnder (first + record.lineAt label.stop) rows ∧
    row.RunsFrom column (record.bracketed labels).length .bottom label.style

variable {record : FileRecord} {options : Options} {first : Int} {labels : List Label}
  {column : Nat} {label : Label}

/-- Beyond the column of the bracket itself every label continues its run. -/
theorem continues_cellOf {i : Nat} {entry : BracketEntry} {stop : BracketEnd}
    {other : Label × Nat} (beyond : entry.column < other.2) :
    (record.cellOf i entry stop other).Continues stop entry.style := by
  have begun : Gutter.runAt entry stop other.2 = some (stop, entry.style) := if_pos beyond
  rw [cellOf, if_neg (Nat.ne_of_gt beyond), begun]
  split
  · exact .crossing other.1.style
  · exact .run

theorem runsFrom_endRow {i : Nat} {entry : BracketEntry} {stop : BracketEnd} (run : List Nat)
    (message : String) (h : (record.bracketed labels)[entry.column]? = some label) :
    (record.endRow labels i entry stop run message).RunsFrom entry.column
      (record.bracketed labels).length stop entry.style := by
  rcases List.getElem?_eq_some_iff.mp h with ⟨inside, found⟩
  have around : record.bracketed labels =
      (record.bracketed labels).take entry.column ++
        label :: (record.bracketed labels).drop (entry.column + 1) := by
    rw [← found, ← List.drop_eq_getElem_cons inside, List.take_append_drop]
  have length : ((record.bracketed labels).take entry.column).length = entry.column :=
    List.length_take_of_le (Nat.le_of_lt inside)
  have own : record.cellOf i entry stop (label, entry.column) = .corner stop entry.style :=
    if_pos rfl
  have gutter : (record.bracketed labels).zipIdx.map (record.cellOf i entry stop) =
      ((record.bracketed labels).take entry.column).zipIdx.map (record.cellOf i entry stop) ++
        .corner stop entry.style ::
          (((record.bracketed labels).drop (entry.column + 1)).zipIdx (entry.column + 1)).map
            (record.cellOf i entry stop) := by
    conv_lhs => rw [around, List.zipIdx_append, List.zipIdx_cons, length, Nat.zero_add]
    rw [List.map_append, List.map_cons, own]
  have continues : ∀ cell ∈ (((record.bracketed labels).drop (entry.column + 1)).zipIdx
      (entry.column + 1)).map (record.cellOf i entry stop),
        cell.Continues stop entry.style := by
    intro cell member
    rcases List.mem_map.mp member with ⟨other, listed, rfl⟩
    exact continues_cellOf (List.le_snd_of_mem_zipIdx listed)
  refine ⟨_, _, run, message, congrArg (Row.bracket · stop entry.style run message) gutter,
    ?_, ?_, continues, ?_⟩
  · rw [List.length_map, List.length_zipIdx, length]
  · rw [← gutter, List.length_map, List.length_zipIdx]
  · intro pencil padding
    rw [endRow, gutter]
    exact pencil.exists_texts_bracket padding continues run message

theorem runsFrom_topRow (h : (record.bracketed labels)[column]? = some label) :
    (record.topRow options labels column label).RunsFrom column (record.bracketed labels).length
      .top label.style := by
  have own : (record.bracketed labels)[(record.topEntry column label).column]? = some label := h
  exact runsFrom_endRow _ _ own

theorem runsFrom_closingRow (h : (record.bracketed labels)[column]? = some label) :
    (record.closingRow options labels column label).RunsFrom column
      (record.bracketed labels).length .bottom label.style := by
  have own : (record.bracketed labels)[(record.bottomEntry column label).column]? = some label := h
  exact runsFrom_endRow _ _ own

theorem isUnder_of_mem_between {i : Nat} {row : Row}
    (h : row ∈ record.markRows options first labels i ++
      record.endRowsLeft options first labels i column) : row.isUnder = true := by
  rcases List.mem_append.mp h with marked | left
  · exact isUnder_of_mem_markRows marked
  · rcases exists_of_mem_endRowsLeft left with ⟨_, _, _, _, _, rfl⟩
    rfl

theorem standsUnder_of_rowsUpTo {row : Row} (under : row.isUnder = true) (i column : Nat)
    (above below : List Row) :
    row.StandsUnder (first + i)
      (above ++ record.rowsUpTo options first labels i column ++ row :: below) := by
  refine ⟨above, record.sourceGutter options first labels i,
    record.sourceCells options first labels i,
    record.markRows options first labels i ++ record.endRowsLeft options first labels i column,
    below, ?_, ?_⟩
  · rw [rowsUpTo, sourceRow]
    simp only [List.append_assoc, List.cons_append]
  · intro other member
    rcases List.mem_append.mp member with earlier | this
    · exact isUnder_of_mem_between earlier
    · rw [List.mem_singleton.mp this]
      exact under

/-- The opening corner, if no other row has one in the column. -/
theorem exists_opening (h : (record.bracketed labels)[column]? = some label)
    {rows above below : List Row}
    (rows_eq : rows = above ++ record.rowsAbove options first labels column label ++
      record.openingRow options first labels column label :: below)
    (before : ∀ row ∈ above, row.corner? column = none)
    (after : ∀ row ∈ below, row.corner? column ≠ some .top) :
    ∃ row, cornerRows rows column .top = [row] ∧
      (record.IsFlush label → ∃ gutter cells,
        row = .source (first + record.lineAt label.start) gutter cells ∧
          gutter[column]? = some (.corner .top label.style)) ∧
      (¬ record.IsFlush label →
        row.StandsUnder (first + record.lineAt label.start) rows ∧
          row.RunsFrom column (record.bracketed labels).length .top label.style) := by
  refine ⟨record.openingRow options first labels column label, ?_, ?_, ?_⟩
  · rw [rows_eq]
    apply cornerRows_eq_singleton (corner?_openingRow h) _ after
    rw [List.forall_mem_append]
    exact ⟨fun row member => Row.corner?_ne (before row member),
      fun row member => Row.corner?_ne (corner?_of_mem_rowsAbove h member)⟩
  · intro flush
    have corner : (record.sourceRow options first labels
        (record.lineAt label.start)).gutter[column]? = _ := getElem?_sourceRow _ h
    rw [if_pos rfl, if_pos flush] at corner
    rw [openingRow, if_pos flush]
    exact ⟨_, _, rfl, corner⟩
  · intro other
    rw [openingRow, if_neg other, rowsAbove, if_neg other] at rows_eq
    rw [openingRow, if_neg other, rows_eq]
    exact ⟨standsUnder_of_rowsUpTo rfl _ column above below, runsFrom_topRow h⟩

/-- The closing corner, if no other row has one in the column. -/
theorem exists_closing (h : (record.bracketed labels)[column]? = some label)
    {rows above below : List Row}
    (rows_eq : rows = above ++
      record.rowsUpTo options first labels (record.lineAt label.stop) column ++
      record.closingRow options labels column label :: below)
    (before : ∀ row ∈ above, row.corner? column ≠ some .bottom)
    (after : ∀ row ∈ below, row.corner? column = none) :
    ∃ row, cornerRows rows column .bottom = [row] ∧
      row.StandsUnder (first + record.lineAt label.stop) rows ∧
      row.RunsFrom column (record.bracketed labels).length .bottom label.style := by
  have order := lineAt_start_lt_stop (List.mem_of_getElem? h)
  refine ⟨record.closingRow options labels column label, ?_, ?_, runsFrom_closingRow h⟩
  · rw [rows_eq]
    apply cornerRows_eq_singleton (corner?_closingRow h)
    · rw [List.forall_mem_append]
      exact ⟨before, fun row member => Row.corner?_ne
        (corner?_of_mem_rowsUpTo h (fun same => absurd same (Nat.ne_of_gt order)) member)⟩
    · exact fun row member => Row.corner?_ne (after row member)
  · rw [rows_eq]
    exact standsUnder_of_rowsUpTo rfl _ column above below

theorem drawsEnds (h : (record.bracketed labels)[column]? = some label)
    {rows above between below : List Row}
    (rows_eq : rows = above ++ record.rowsAbove options first labels column label ++
      record.openingRow options first labels column label ::
        (record.brokenRows options first labels column label ++ between ++
          record.rowsUpTo options first labels (record.lineAt label.stop) column ++
          record.closingRow options labels column label :: below))
    (before : ∀ row ∈ above, row.corner? column = none)
    (inside : ∀ row ∈ between, row.corner? column = none)
    (after : ∀ row ∈ below, row.corner? column = none) :
    record.DrawsEnds first labels rows column label where
  opened := by
    have order := lineAt_start_lt_stop (List.mem_of_getElem? h)
    apply exists_opening h rows_eq before
    simp only [List.forall_mem_append, List.forall_mem_cons]
    refine ⟨⟨⟨?_, ?_⟩, ?_⟩, ?_, ?_⟩
    · exact fun row member => Row.corner?_ne (corner?_of_mem_brokenRows h member)
    · exact fun row member => Row.corner?_ne (inside row member)
    · exact fun row member => Row.corner?_ne
        (corner?_of_mem_rowsUpTo h (fun same => absurd same (Nat.ne_of_gt order)) member)
    · rw [corner?_closingRow h]
      exact nofun
    · exact fun row member => Row.corner?_ne (after row member)
  closed := by
    have regrouped : rows =
        (above ++ record.rowsAbove options first labels column label ++
          record.openingRow options first labels column label ::
            (record.brokenRows options first labels column label ++ between)) ++
          record.rowsUpTo options first labels (record.lineAt label.stop) column ++
          record.closingRow options labels column label :: below := by
      rw [rows_eq]
      simp only [List.append_assoc, List.cons_append]
    apply exists_closing h regrouped _ after
    simp only [List.forall_mem_append, List.forall_mem_cons]
    refine ⟨⟨?_, ?_⟩, ?_, ?_, ?_⟩
    · exact fun row member => Row.corner?_ne (before row member)
    · exact fun row member => Row.corner?_ne (corner?_of_mem_rowsAbove h member)
    · rw [corner?_openingRow h]
      exact nofun
    · exact fun row member => Row.corner?_ne (corner?_of_mem_brokenRows h member)
    · exact fun row member => Row.corner?_ne (inside row member)

end FileRecord

/-!
# Two brackets that cross
-/

namespace Letters

/-- The first bracket opens after the indentation of its line and closes inside the second one. -/
def crossed : Diagnostic where
  severity := .error
  code := none
  message := "letters"
  labels := [⟨.secondary, .int 0, 4, 16, "inner letters", by decide, by decide⟩, all, one]
  notes := ["ten letters"]

theorem crossed_valid : ∀ label ∈ crossed.labels, label.IsValid base := by
  decide +kernel

end Letters

namespace View

theorem corners_exact (base : FileBase) (first : Int) (options : Options)
    (diagnostic : Diagnostic) (rich : options.displayStyle = .rich)
    (valid : ∀ label ∈ diagnostic.labels, label.IsValid base) :
    (∃ plan, Plan.ofDiagnostic (base.numberedFrom first) options diagnostic = .ok plan ∧
      ∃ blocks : List (List Row),
        (steps (base.numberedFrom first) options diagnostic).filterMap Step.row? =
          .header none diagnostic.code diagnostic.message ::
            (blocks.flatten ++ diagnostic.notes.flatMap noteRows ++ [.blank]) ∧
        List.Forall₂ (fun file rows => ∃ record, base.Holds file.id record ∧
          ∀ column label,
            (record.bracketed (diagnostic.labelsIn file.id))[column]? = some label →
              record.DrawsEnds first (diagnostic.labelsIn file.id) rows column label)
          plan.files blocks) ∧
      Overflow.DrawsSteps (base.numberedFrom first) options diagnostic := by
  have shown : Overflow.DrawsSteps (base.numberedFrom first) options diagnostic :=
    Overflow.drawsSteps (fail_not_mem_steps valid)
  refine ⟨?_, shown⟩
  rw [steps, rich]
  apply Rich.exists_blocks valid
  intro file record isClosed known column label listed
  rcases known.exists_block_eq listed isClosed with
    ⟨above, between, below, rows_eq, before, inside, after⟩
  exact FileRecord.drawsEnds listed rows_eq before (fun row member => (inside row member).1) after

theorem corners_exact_letters :
    (∀ label ∈ Letters.crossed.labels, label.IsValid Letters.base) ∧
      ∃ plan, Plan.ofDiagnostic Letters.base.lookup {} Letters.crossed = .ok plan ∧
        ∃ blocks : List (List Row),
          (steps Letters.base.lookup {} Letters.crossed).filterMap Step.row? =
            .header none none "letters" ::
              (blocks.flatten ++ noteRows "ten letters" ++ [.blank]) ∧
          List.Forall₂ (fun file rows => ∃ record, Letters.base.Holds file.id record ∧
            ∀ column label,
              (record.bracketed (Letters.crossed.labelsIn file.id))[column]? = some label →
                record.DrawsEnds 1 (Letters.crossed.labelsIn file.id) rows column label)
            plan.files blocks :=
  ⟨Letters.crossed_valid,
    (corners_exact Letters.base 1 {} Letters.crossed rfl Letters.crossed_valid).1⟩

end View
end SourceReport

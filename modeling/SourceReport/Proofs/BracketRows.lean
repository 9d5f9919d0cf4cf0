import SourceReport.Proofs.BracketGutters
import SourceReport.Proofs.SourceRows

/-!
# Rows with brackets

What each row of a line shows in the gutter column of a label: the corner of an end of its bracket,
the bar where the bracket goes on, or nothing of it.
-/

namespace SourceReport

/-!
# Corners and bars of a row
-/

namespace GutterCell

def corner? : GutterCell → Option BracketEnd
  | .corner stop _ => some stop
  | .blank => none
  | .bar _ => none
  | .run _ _ => none
  | .crossing _ _ => none

/-- Whatever the pieces look like, the last one that is drawn in the cell is the vertical bar. -/
def ShowsBar (cell : GutterCell) : Prop :=
  ∀ pencil : Pencil,
    ((pencil.gutterCell cell).filterMap Event.text?).getLast? = some pencil.glyphs.bar

end GutterCell

namespace Row

/-- The gutter cells of a row. -/
def gutter : Row → List GutterCell
  | .source _ gutter _ => gutter
  | .carets gutter _ _ => gutter
  | .pointers gutter _ => gutter
  | .hanging gutter _ _ _ => gutter
  | .bracket gutter _ _ _ _ => gutter
  | .empty gutter => gutter
  | .gap gutter => gutter
  | .header _ _ _ => []
  | .blank => []
  | .start _ => []
  | .note _ _ => []

/-- The corner that a row has in a gutter column. -/
def corner? (row : Row) (column : Nat) : Option BracketEnd :=
  row.gutter[column]?.bind GutterCell.corner?

def ShowsBar (row : Row) (column : Nat) : Prop :=
  ∃ cell, row.gutter[column]? = some cell ∧ cell.ShowsBar

/-- Rows that stand under the source row of their line. -/
def isUnder : Row → Bool
  | .carets _ _ _ => true
  | .pointers _ _ => true
  | .hanging _ _ _ _ => true
  | .bracket _ _ _ _ _ => true
  | .source _ _ _ => false
  | .empty _ => false
  | .gap _ => false
  | .header _ _ _ => false
  | .blank => false
  | .start _ => false
  | .note _ _ => false

variable {row : Row} {column : Nat}

theorem corner?_eq {cell : GutterCell} (h : row.gutter[column]? = some cell) :
    row.corner? column = cell.corner? := by
  rw [corner?, h]
  rfl

theorem corner?_eq_none_of_blanks (h : ∀ cell ∈ row.gutter, cell = .blank) (column : Nat) :
    row.corner? column = none := by
  cases found : row.gutter[column]? with
  | none =>
      rw [corner?, found]
      rfl
  | some cell =>
      rw [corner?_eq found, h cell (List.mem_of_getElem? found)]
      rfl

end Row

theorem GutterCell.showsBar_bar (style : LabelStyle) : (GutterCell.bar style).ShowsBar := by
  intro pencil
  rfl

theorem Gutter.showsBar_barCell (run : Gutter.Run) (style : LabelStyle) :
    (Gutter.barCell run style).ShowsBar := by
  intro pencil
  cases run with
  | none => rfl
  | some begun => rfl

theorem Gutter.corner?_barCell (run : Gutter.Run) (style : LabelStyle) :
    (Gutter.barCell run style).corner? = none := by
  cases run with
  | none => rfl
  | some begun => rfl

theorem Gutter.corner?_runCell (run : Gutter.Run) : (Gutter.runCell run).corner? = none := by
  cases run with
  | none => rfl
  | some begun => rfl

namespace Line

theorem of_mem_markRows {gutter : List GutterCell} {line : List Char} {placed : List PlacedChar}
    {marks : List SingleMark} {row : Row} (h : row ∈ markRows gutter line placed marks) :
    row.isUnder = true ∧ row.gutter = gutter := by
  rw [markRows] at h
  split at h
  · rw [List.mem_singleton.mp h]
    exact ⟨rfl, rfl⟩
  · rcases List.mem_cons.mp h with this | h
    · rw [this]
      exact ⟨rfl, rfl⟩
    · rcases List.mem_cons.mp h with this | h
      · rw [this]
        exact ⟨rfl, rfl⟩
      · rcases List.mem_map.mp h with ⟨mark, _, rfl⟩
        exact ⟨rfl, rfl⟩

end Line

namespace FileRecord

variable (record : FileRecord) (options : Options) (first : Int) (labels : List Label)

/-!
# The rows of a line
-/

/-- The blanks and tabs that a line begins with. -/
def indentAt (i : Nat) : Nat :=
  Line.indent (Line.trimTrailing (record.lineText i))

def placedAt (i : Nat) : List PlacedChar :=
  Line.place options.tabWidth (Line.trimTrailing (record.lineText i))

/-- The rows of the labels that lie on a line. -/
def markRows (i : Nat) : List Row :=
  if (record.marksAt options first labels i).isEmpty then []
  else
    Line.markRows
      (Gutter.ofLine (record.entriesAt options first labels i)
        (record.columns options first labels))
      (Line.trimTrailing (record.lineText i)) (record.placedAt options i)
      (record.marksAt options first labels i)

/-- The row of a bracket's end on a line. -/
def endRow (i : Nat) (entry : BracketEntry) (stop : BracketEnd) (run : List Nat)
    (message : String) : Row :=
  .bracket ((record.bracketed labels).zipIdx.map (record.cellOf i entry stop)) stop entry.style
    run message

/-- The row of an entry, unless it has none. -/
def endRow? (i : Nat) (entry : BracketEntry) : Option Row :=
  match entry.part with
  | .left => none
  | .top start =>
      if start ≤ record.indentAt i then none
      else
        some (record.endRow labels i entry .top
          (Line.widthsBefore (record.placedAt options i) (start + 1)) "")
  | .bottom stop message =>
      some (record.endRow labels i entry .bottom
        (Line.widthsBefore (record.placedAt options i) stop) message)

def endRows (i : Nat) : List Row :=
  (record.entriesAt options first labels i).filterMap (record.endRow? options labels i)

theorem bracketRow?_entriesAt (i : Nat) {entry : BracketEntry} {place : Nat}
    (placed : (record.entriesAt options first labels i)[place]? = some entry) :
    Line.bracketRow? (record.entriesAt options first labels i)
        (record.columns options first labels) (record.indentAt i) (record.placedAt options i)
        entry place =
      record.endRow? options labels i entry := by
  rw [Line.bracketRow?, endRow?]
  cases part : entry.part with
  | left => rfl
  | top start =>
      have ends : entry.part.end? = some .top := by rw [part]; rfl
      rw [record.ofBracket_entriesAt options first i placed ends]
      rfl
  | bottom stop message =>
      have ends : entry.part.end? = some .bottom := by rw [part]; rfl
      rw [record.ofBracket_entriesAt options first i placed ends]
      rfl

theorem lineRows_eq (i : Nat) :
    record.lineRows options first labels i =
      record.sourceRow options first labels i ::
        (record.markRows options first labels i ++ record.endRows options first labels i) := by
  have ends : Line.bracketRows (record.entriesAt options first labels i)
      (record.columns options first labels) (record.indentAt i) (record.placedAt options i) =
        record.endRows options first labels i := by
    have firsts := List.zipIdx_map_fst 0 (record.entriesAt options first labels i)
    rw [endRows, ← firsts, List.filterMap_map, firsts, Line.bracketRows]
    apply List.filterMap_congr
    intro entry member
    exact record.bracketRow?_entriesAt options first labels i
      (List.mem_zipIdx_iff_getElem?.mp member)
  rw [← ends, lineRows, Line.rows, String.toList_ofList]
  rfl

variable {record options first labels} {i : Nat} {row : Row}

theorem isUnder_of_mem_markRows (h : row ∈ record.markRows options first labels i) :
    row.isUnder = true := by
  rw [markRows] at h
  split at h
  · cases h
  · exact (Line.of_mem_markRows h).1

theorem exists_of_endRow? {entry : BracketEntry}
    (h : record.endRow? options labels i entry = some row) :
    ∃ stop run message, entry.part.end? = some stop ∧
      row = record.endRow labels i entry stop run message := by
  rw [endRow?] at h
  split at h
  · cases h
  · rename_i start part
    split at h
    · cases h
    · cases h
      exact ⟨.top, _, _, by rw [part]; rfl, rfl⟩
  · rename_i stop message part
    cases h
    exact ⟨.bottom, _, _, by rw [part]; rfl, rfl⟩

/-!
# The column of a label
-/

variable {column : Nat} {label : Label}

/-- The label begins in the indentation of its first line. -/
def IsFlush (record : FileRecord) (label : Label) : Prop :=
  (label.start : Int) - record.startOf (record.lineAt label.start) ≤
    record.indentAt (record.lineAt label.start)

instance (record : FileRecord) (label : Label) : Decidable (record.IsFlush label) :=
  inferInstanceAs (Decidable (_ ≤ _))

/-- The source row shows the corner of a label that begins in the indentation of the line, and the
bar of one that began above it. -/
theorem getElem?_sourceRow (i : Nat) (h : (record.bracketed labels)[column]? = some label) :
    (record.sourceRow options first labels i).gutter[column]? = some
      (if i = record.lineAt label.start then
          if record.IsFlush label then .corner .top label.style else .blank
        else if record.lineAt label.start < i ∧ i ≤ record.lineAt label.stop then .bar label.style
        else .blank) := by
  have cells := record.ofSource_entriesAt options first labels i (record.indentAt i)
  show (Gutter.ofSource (record.entriesAt options first labels i)
    (record.columns options first labels) (record.indentAt i))[column]? = _
  rw [cells, List.getElem?_map, h, Option.map_some]
  by_cases start : i = record.lineAt label.start
  · rw [if_pos start, if_pos start, start]
    rfl
  · rw [if_neg start, if_neg start]

theorem getElem?_ofLine (i : Nat) (h : (record.bracketed labels)[column]? = some label) :
    (Gutter.ofLine (record.entriesAt options first labels i)
      (record.columns options first labels))[column]? = some
        (if record.lineAt label.start < i ∧ i ≤ record.lineAt label.stop then .bar label.style
          else .blank) := by
  rw [ofLine_entriesAt, List.getElem?_map, h]
  rfl

theorem getElem?_of_mem_markRows (member : row ∈ record.markRows options first labels i)
    (h : (record.bracketed labels)[column]? = some label) :
    row.gutter[column]? = some
      (if record.lineAt label.start < i ∧ i ≤ record.lineAt label.stop then .bar label.style
        else .blank) := by
  rw [markRows] at member
  split at member
  · cases member
  · rw [(Line.of_mem_markRows member).2]
    exact getElem?_ofLine i h

theorem getElem?_endRow {entry : BracketEntry} {stop : BracketEnd} (run : List Nat)
    (message : String) (h : (record.bracketed labels)[column]? = some label) :
    (record.endRow labels i entry stop run message).gutter[column]? =
      some (record.cellOf i entry stop (label, column)) := by
  show ((record.bracketed labels).zipIdx.map (record.cellOf i entry stop))[column]? = _
  rw [List.getElem?_map, List.getElem?_zipIdx, h, Nat.zero_add]
  rfl

theorem getElem?_gapRow (next : Nat) (h : (record.bracketed labels)[column]? = some label) :
    (record.gapRow options first labels next).gutter[column]? = some
      (if record.lineAt label.start < next ∧ next ≤ record.lineAt label.stop then .bar label.style
        else .blank) :=
  getElem?_ofLine next h

/-!
# Corners in the column of a label
-/

theorem corner?_sourceRow (h : (record.bracketed labels)[column]? = some label)
    (other : i = record.lineAt label.start → ¬ record.IsFlush label) :
    (record.sourceRow options first labels i).corner? column = none := by
  rw [Row.corner?_eq (getElem?_sourceRow i h)]
  split
  · rename_i start
    rw [if_neg (other start)]
    rfl
  · split <;> rfl

theorem corner?_sourceRow_flush (h : (record.bracketed labels)[column]? = some label)
    (flush : record.IsFlush label) :
    (record.sourceRow options first labels (record.lineAt label.start)).corner? column =
      some .top := by
  rw [Row.corner?_eq (getElem?_sourceRow _ h), if_pos rfl, if_pos flush]
  rfl

theorem corner?_of_mem_markRows (h : (record.bracketed labels)[column]? = some label)
    (member : row ∈ record.markRows options first labels i) : row.corner? column = none := by
  rw [Row.corner?_eq (getElem?_of_mem_markRows member h)]
  split <;> rfl

theorem corner?_gapRow (h : (record.bracketed labels)[column]? = some label) (next : Nat) :
    (record.gapRow options first labels next).corner? column = none := by
  rw [Row.corner?_eq (getElem?_gapRow next h)]
  split <;> rfl

/-- A bracket row has its corner in its own column and no other corner. -/
theorem corner?_endRow {entry : BracketEntry} {stop : BracketEnd} (run : List Nat) (message : String)
    (h : (record.bracketed labels)[column]? = some label) :
    (record.endRow labels i entry stop run message).corner? column =
      if column = entry.column then some stop else none := by
  rw [Row.corner?_eq (getElem?_endRow run message h), cellOf]
  split
  · rfl
  · split
    · exact Gutter.corner?_barCell _ _
    · exact Gutter.corner?_runCell _

/-!
# Bars in the column of a label
-/

theorem showsBar_of_eq_ite {i : Nat} {cell : GutterCell}
    (h : row.gutter[column]? = some
      (if record.lineAt label.start < i ∧ i ≤ record.lineAt label.stop then .bar label.style
        else cell))
    (above : record.lineAt label.start < i) (below : i ≤ record.lineAt label.stop) :
    row.ShowsBar column := by
  rw [if_pos ⟨above, below⟩] at h
  exact ⟨_, h, GutterCell.showsBar_bar label.style⟩

theorem showsBar_sourceRow (h : (record.bracketed labels)[column]? = some label)
    (above : record.lineAt label.start < i) (below : i ≤ record.lineAt label.stop) :
    (record.sourceRow options first labels i).ShowsBar column := by
  have cell : (record.sourceRow options first labels i).gutter[column]? = _ :=
    getElem?_sourceRow i h
  rw [if_neg (Nat.ne_of_gt above)] at cell
  exact showsBar_of_eq_ite cell above below

theorem showsBar_of_mem_markRows (h : (record.bracketed labels)[column]? = some label)
    (member : row ∈ record.markRows options first labels i)
    (above : record.lineAt label.start < i) (below : i ≤ record.lineAt label.stop) :
    row.ShowsBar column :=
  showsBar_of_eq_ite (getElem?_of_mem_markRows member h) above below

theorem showsBar_gapRow (h : (record.bracketed labels)[column]? = some label) {next : Nat}
    (above : record.lineAt label.start < next) (below : next ≤ record.lineAt label.stop) :
    (record.gapRow options first labels next).ShowsBar column :=
  showsBar_of_eq_ite (getElem?_gapRow next h) above below

theorem showsBar_endRow {entry : BracketEntry} {stop : BracketEnd} (run : List Nat) (message : String)
    (h : (record.bracketed labels)[column]? = some label) (other : column ≠ entry.column)
    (beside : record.IsBeside i entry.column column label) :
    (record.endRow labels i entry stop run message).ShowsBar column := by
  refine ⟨_, getElem?_endRow run message h, ?_⟩
  rw [cellOf, if_neg other, if_pos beside]
  exact Gutter.showsBar_barCell _ _

end FileRecord
end SourceReport

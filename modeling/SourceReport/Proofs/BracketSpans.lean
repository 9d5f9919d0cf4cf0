import SourceReport.Proofs.Blocks
import SourceReport.Proofs.BracketRows

/-!
# From corner to corner

The rows of a file around the bracket of one label: those above the row of its opening corner, those
between it and the row of its closing corner, and those below.
-/

namespace SourceReport

/-- Ascending entries are those to the left of a column, those in it, and those to the right. -/
theorem BracketEntry.eq_around {entries : List BracketEntry}
    (ascending : entries.Pairwise fun entry next => entry.column < next.column) (column : Nat) :
    entries = entries.filter (fun entry => entry.column < column) ++
      entries.filter (fun entry => entry.column = column) ++
      entries.filter fun entry => column < entry.column := by
  induction entries with
  | nil => rfl
  | cons entry rest ih =>
      rcases List.pairwise_cons.mp ascending with ⟨beyond, tail⟩
      by_cases before : entry.column < column
      · have other : ¬ entry.column = column := Nat.ne_of_lt before
        have unpassed : ¬ column < entry.column := Nat.lt_asymm before
        simpa [before, other, unpassed] using congrArg (entry :: ·) (ih tail)
      · have past : ∀ next ∈ rest, column < next.column := by
          intro next member
          have order := beyond next member
          omega
        have left : rest.filter (fun next => next.column < column) = [] := by
          simpa using fun next member => Nat.le_of_lt (past next member)
        have here : rest.filter (fun next => next.column = column) = [] := by
          simpa using fun next member => Nat.ne_of_gt (past next member)
        have right : rest.filter (fun next => column < next.column) = rest := by
          simpa using past
        by_cases same : entry.column = column
        · simp [same, left, here, right]
        · have beyond : column < entry.column := by omega
          simp [before, same, beyond, left, here, right]

namespace FileRecord

variable (record : FileRecord) (options : Options) (first : Int) (labels : List Label)

/-!
# The two ends of a bracket
-/

/-- The rows of the brackets that end on a line, in the columns to the left of a column. -/
def endRowsLeft (i column : Nat) : List Row :=
  ((record.entriesAt options first labels i).filter fun entry =>
    entry.column < column).filterMap (record.endRow? options labels i)

/-- The rows of the brackets that end on a line, in the columns to the right of a column. -/
def endRowsRight (i column : Nat) : List Row :=
  ((record.entriesAt options first labels i).filter fun entry =>
    column < entry.column).filterMap (record.endRow? options labels i)

/-- The rows of a line down to those of the brackets to the left of a column. -/
def rowsUpTo (i column : Nat) : List Row :=
  record.sourceRow options first labels i ::
    (record.markRows options first labels i ++ record.endRowsLeft options first labels i column)

def topEntry (column : Nat) (label : Label) : BracketEntry :=
  ⟨column, label.style, .top (label.start - record.startOf (record.lineAt label.start))⟩

def bottomEntry (column : Nat) (label : Label) : BracketEntry :=
  ⟨column, label.style,
    .bottom (label.stop - record.startOf (record.lineAt label.stop)) label.message⟩

/-- The bracket row in which a label begins that does not begin in the indentation. -/
def topRow (column : Nat) (label : Label) : Row :=
  record.endRow labels (record.lineAt label.start) (record.topEntry column label) .top
    (Line.widthsBefore (record.placedAt options (record.lineAt label.start))
      (label.start - record.startOf (record.lineAt label.start) + 1)) ""

/-- The row of the closing corner of a label. -/
def closingRow (column : Nat) (label : Label) : Row :=
  record.endRow labels (record.lineAt label.stop) (record.bottomEntry column label) .bottom
    (Line.widthsBefore (record.placedAt options (record.lineAt label.stop))
      (label.stop - record.startOf (record.lineAt label.stop))) label.message

/-- The row of the opening corner of a label. -/
def openingRow (column : Nat) (label : Label) : Row :=
  if record.IsFlush label then
    record.sourceRow options first labels (record.lineAt label.start)
  else record.topRow options labels column label

/-- The rows of its first line that stand above the opening corner of a label. -/
def rowsAbove (column : Nat) (label : Label) : List Row :=
  if record.IsFlush label then []
  else record.rowsUpTo options first labels (record.lineAt label.start) column

/-- The rows of its first line that do not show the bar of a label although they stand under its
opening corner. -/
def brokenRows (column : Nat) (label : Label) : List Row :=
  if record.IsFlush label then
    record.markRows options first labels (record.lineAt label.start) ++
      record.endRowsLeft options first labels (record.lineAt label.start) column
  else []

variable {record options first labels} {column : Nat} {label : Label}

theorem endRows_eq (i : Nat) (h : (record.bracketed labels)[column]? = some label) :
    record.endRows options first labels i =
      record.endRowsLeft options first labels i column ++
        ((Plan.entryAt? i column (record.placement options first label)).bind
          (record.endRow? options labels i)).toList ++
        record.endRowsRight options first labels i column := by
  have ascending := record.pairwise_entriesAt options first labels i
  rw [endRows]
  conv_lhs => rw [BracketEntry.eq_around ascending column]
  rw [List.filterMap_append, List.filterMap_append, record.filter_entriesAt options first labels i h]
  cases Plan.entryAt? i column (record.placement options first label) with
  | none => rfl
  | some entry =>
      have single : [entry].filterMap (record.endRow? options labels i) =
          (record.endRow? options labels i entry).toList := by
        rw [List.filterMap_cons]
        cases record.endRow? options labels i entry <;> rfl
      rw [Option.toList_some, single]
      rfl

theorem bind_endRow?_start :
    (Plan.entryAt? (record.lineAt label.start) column (record.placement options first label)).bind
        (record.endRow? options labels (record.lineAt label.start)) =
      if record.IsFlush label then none else some (record.topRow options labels column label) := by
  rw [entryAt?_first, Option.bind_some]
  rfl

theorem bind_endRow?_stop (several : record.lineAt label.start < record.lineAt label.stop) :
    (Plan.entryAt? (record.lineAt label.stop) column (record.placement options first label)).bind
        (record.endRow? options labels (record.lineAt label.stop)) =
      some (record.closingRow options labels column label) := by
  rw [entryAt?_last several, Option.bind_some]
  rfl

theorem lineRows_start (h : (record.bracketed labels)[column]? = some label) :
    record.lineRows options first labels (record.lineAt label.start) =
      record.rowsAbove options first labels column label ++
        record.openingRow options first labels column label ::
          (record.brokenRows options first labels column label ++
            record.endRowsRight options first labels (record.lineAt label.start) column) := by
  rw [lineRows_eq, endRows_eq _ h, bind_endRow?_start, rowsAbove, openingRow, brokenRows]
  by_cases flush : record.IsFlush label
  · rw [if_pos flush, if_pos flush, if_pos flush, if_pos flush]
    simp only [Option.toList_none, List.append_assoc, List.nil_append]
  · rw [if_neg flush, if_neg flush, if_neg flush, if_neg flush, rowsUpTo]
    simp only [Option.toList_some, List.append_assoc, List.cons_append, List.nil_append]

theorem lineRows_stop (h : (record.bracketed labels)[column]? = some label) :
    record.lineRows options first labels (record.lineAt label.stop) =
      record.rowsUpTo options first labels (record.lineAt label.stop) column ++
        record.closingRow options labels column label ::
          record.endRowsRight options first labels (record.lineAt label.stop) column := by
  have several := lineAt_start_lt_stop (List.mem_of_getElem? h)
  rw [lineRows_eq, endRows_eq _ h, bind_endRow?_stop several, rowsUpTo]
  simp only [Option.toList_some, List.append_assoc, List.cons_append, List.nil_append]

/-- On a line where the label neither begins nor ends it has no bracket row. -/
theorem endRows_eq_append {i : Nat} (h : (record.bracketed labels)[column]? = some label)
    (start : i ≠ record.lineAt label.start) (stop : i ≠ record.lineAt label.stop) :
    record.endRows options first labels i =
      record.endRowsLeft options first labels i column ++
        record.endRowsRight options first labels i column := by
  have unended : (Plan.entryAt? i column (record.placement options first label)).bind
      (record.endRow? options labels i) = none := by
    rcases entryAt?_cases (lineAt_start_lt_stop (List.mem_of_getElem? h)) i column with
      ⟨_, entry⟩ | ⟨same, _⟩ | ⟨_, entry⟩ | ⟨same, _⟩
    · rw [entry]
      rfl
    · exact absurd same start
    · rw [entry]
      rfl
    · exact absurd same stop
  rw [endRows_eq i h, unended, Option.toList_none, List.append_nil]

/-!
# Rows of other brackets
-/

variable {i : Nat} {row : Row}

theorem exists_of_mem_filterMap_endRow? {keep : BracketEntry → Bool}
    (h : row ∈ ((record.entriesAt options first labels i).filter keep).filterMap
      (record.endRow? options labels i)) :
    ∃ entry, keep entry = true ∧
      ∃ stop run message, row = record.endRow labels i entry stop run message := by
  rcases List.mem_filterMap.mp h with ⟨entry, listed, drawn⟩
  rcases exists_of_endRow? drawn with ⟨stop, run, message, _, rfl⟩
  exact ⟨entry, (List.mem_filter.mp listed).2, stop, run, message, rfl⟩

theorem exists_of_mem_endRowsLeft (h : row ∈ record.endRowsLeft options first labels i column) :
    ∃ entry, entry.column < column ∧
      ∃ stop run message, row = record.endRow labels i entry stop run message := by
  rcases exists_of_mem_filterMap_endRow? h with ⟨entry, before, drawn⟩
  exact ⟨entry, of_decide_eq_true before, drawn⟩

theorem exists_of_mem_endRowsRight (h : row ∈ record.endRowsRight options first labels i column) :
    ∃ entry, column < entry.column ∧
      ∃ stop run message, row = record.endRow labels i entry stop run message := by
  rcases exists_of_mem_filterMap_endRow? h with ⟨entry, after, drawn⟩
  exact ⟨entry, of_decide_eq_true after, drawn⟩

theorem corner?_of_mem_endRowsLeft (h : (record.bracketed labels)[column]? = some label)
    (member : row ∈ record.endRowsLeft options first labels i column) :
    row.corner? column = none := by
  rcases exists_of_mem_endRowsLeft member with ⟨entry, before, stop, run, message, rfl⟩
  rw [corner?_endRow run message h, if_neg (Nat.ne_of_gt before)]

theorem corner?_of_mem_endRowsRight (h : (record.bracketed labels)[column]? = some label)
    (member : row ∈ record.endRowsRight options first labels i column) :
    row.corner? column = none := by
  rcases exists_of_mem_endRowsRight member with ⟨entry, after, stop, run, message, rfl⟩
  rw [corner?_endRow run message h, if_neg (Nat.ne_of_lt after)]

/-- Beside the rows of earlier brackets the bar stands on every line below the first one. -/
theorem showsBar_of_mem_endRowsLeft (h : (record.bracketed labels)[column]? = some label)
    (above : record.lineAt label.start < i) (below : i ≤ record.lineAt label.stop)
    (member : row ∈ record.endRowsLeft options first labels i column) : row.ShowsBar column := by
  rcases exists_of_mem_endRowsLeft member with ⟨entry, before, stop, run, message, rfl⟩
  have beside : record.IsBeside i entry.column column label := by
    unfold IsBeside
    omega
  exact showsBar_endRow run message h (Nat.ne_of_gt before) beside

/-- Beside the rows of later brackets the bar stands on every line above the last one. -/
theorem showsBar_of_mem_endRowsRight (h : (record.bracketed labels)[column]? = some label)
    (above : record.lineAt label.start ≤ i) (below : i < record.lineAt label.stop)
    (member : row ∈ record.endRowsRight options first labels i column) : row.ShowsBar column := by
  rcases exists_of_mem_endRowsRight member with ⟨entry, after, stop, run, message, rfl⟩
  have beside : record.IsBeside i entry.column column label := by
    unfold IsBeside
    omega
  exact showsBar_endRow run message h (Nat.ne_of_lt after) beside

/-!
# Rows of a line around a bracket row
-/

theorem corner?_openingRow (h : (record.bracketed labels)[column]? = some label) :
    (record.openingRow options first labels column label).corner? column = some .top := by
  by_cases flush : record.IsFlush label
  · rw [openingRow, if_pos flush]
    exact corner?_sourceRow_flush h flush
  · rw [openingRow, if_neg flush, topRow, corner?_endRow _ _ h]
    exact if_pos rfl

theorem corner?_closingRow (h : (record.bracketed labels)[column]? = some label) :
    (record.closingRow options labels column label).corner? column = some .bottom := by
  rw [closingRow, corner?_endRow _ _ h]
  exact if_pos rfl

theorem corner?_of_mem_rowsUpTo (h : (record.bracketed labels)[column]? = some label)
    (other : i = record.lineAt label.start → ¬ record.IsFlush label)
    (member : row ∈ record.rowsUpTo options first labels i column) : row.corner? column = none := by
  rcases List.mem_cons.mp member with this | member
  · rw [this]
    exact corner?_sourceRow h other
  · rcases List.mem_append.mp member with marked | left
    · exact corner?_of_mem_markRows h marked
    · exact corner?_of_mem_endRowsLeft h left

theorem showsBar_of_mem_rowsUpTo (h : (record.bracketed labels)[column]? = some label)
    (above : record.lineAt label.start < i) (below : i ≤ record.lineAt label.stop)
    (member : row ∈ record.rowsUpTo options first labels i column) : row.ShowsBar column := by
  rcases List.mem_cons.mp member with this | member
  · rw [this]
    exact showsBar_sourceRow h above below
  · rcases List.mem_append.mp member with marked | left
    · exact showsBar_of_mem_markRows h marked above below
    · exact showsBar_of_mem_endRowsLeft h above below left

theorem corner?_of_mem_rowsAbove (h : (record.bracketed labels)[column]? = some label)
    (member : row ∈ record.rowsAbove options first labels column label) :
    row.corner? column = none := by
  rw [rowsAbove] at member
  split at member
  · cases member
  · rename_i other
    exact corner?_of_mem_rowsUpTo h (fun _ => other) member

theorem corner?_of_mem_brokenRows (h : (record.bracketed labels)[column]? = some label)
    (member : row ∈ record.brokenRows options first labels column label) :
    row.corner? column = none := by
  rw [brokenRows] at member
  split at member
  · rcases List.mem_append.mp member with marked | left
    · exact corner?_of_mem_markRows h marked
    · exact corner?_of_mem_endRowsLeft h left
  · cases member

/-!
# Rows of other lines
-/

theorem lineRows_eq_append (h : (record.bracketed labels)[column]? = some label)
    (start : i ≠ record.lineAt label.start) (stop : i ≠ record.lineAt label.stop) :
    record.lineRows options first labels i =
      record.rowsUpTo options first labels i column ++
        record.endRowsRight options first labels i column := by
  rw [lineRows_eq, endRows_eq_append h start stop, rowsUpTo]
  simp only [List.cons_append, List.append_assoc]

theorem corner?_of_mem_lineRows (h : (record.bracketed labels)[column]? = some label)
    (start : i ≠ record.lineAt label.start) (stop : i ≠ record.lineAt label.stop)
    (member : row ∈ record.lineRows options first labels i) : row.corner? column = none := by
  rw [lineRows_eq_append h start stop] at member
  rcases List.mem_append.mp member with upTo | right
  · exact corner?_of_mem_rowsUpTo h (fun same => absurd same start) upTo
  · exact corner?_of_mem_endRowsRight h right

theorem showsBar_of_mem_lineRows (h : (record.bracketed labels)[column]? = some label)
    (above : record.lineAt label.start < i) (below : i < record.lineAt label.stop)
    (member : row ∈ record.lineRows options first labels i) : row.ShowsBar column := by
  rw [lineRows_eq_append h (Nat.ne_of_gt above) (Nat.ne_of_lt below)] at member
  rcases List.mem_append.mp member with upTo | right
  · exact showsBar_of_mem_rowsUpTo h above (Nat.le_of_lt below) upTo
  · exact showsBar_of_mem_endRowsRight h (Nat.le_of_lt above) below right

/-!
# The rows of a snippet
-/

variable {shown : List Nat}

/-- A snippet around the first and the last line of a label: no other row has a corner of its
bracket, and every row between the two lines shows its bar. -/
theorem exists_snippetRows_eq (h : (record.bracketed labels)[column]? = some label)
    (sorted : shown.Pairwise (· < ·)) (start : record.lineAt label.start ∈ shown)
    (stop : record.lineAt label.stop ∈ shown) :
    ∃ above between below,
      record.snippetRows options first labels shown =
        above ++ record.lineRows options first labels (record.lineAt label.start) ++ between ++
          record.lineRows options first labels (record.lineAt label.stop) ++ below ∧
      (∀ row ∈ above, row.corner? column = none) ∧
      (∀ row ∈ between, row.corner? column = none ∧ row.ShowsBar column) ∧
      ∀ row ∈ below, row.corner? column = none := by
  have order := lineAt_start_lt_stop (List.mem_of_getElem? h)
  have drawn : ∀ i ∈ shown, i ∈ Snippet.fillGaps shown := fun i listed =>
    (Snippet.mem_fillGaps sorted i).mpr (Or.inl listed)
  rcases Snippet.exists_weave_eq (record.lineRows options first labels)
      (fun _ next => [record.gapRow options first labels next])
      (Snippet.pairwise_fillGaps sorted) (drawn _ start) (drawn _ stop) order with
    ⟨above, between, below, rows_eq, before, inside, after⟩
  refine ⟨above, between, below, rows_eq, ?_, ?_, ?_⟩
  · intro row member
    rcases before row member with ⟨k, bound, listed⟩ | ⟨_, k, _, gap⟩
    · exact corner?_of_mem_lineRows h (Nat.ne_of_lt bound) (by omega) listed
    · rw [List.mem_singleton.mp gap]
      exact corner?_gapRow h k
  · intro row member
    rcases inside row member with ⟨k, past, bound, listed⟩ | ⟨_, k, past, bound, gap⟩
    · exact ⟨corner?_of_mem_lineRows h (Nat.ne_of_gt past) (Nat.ne_of_lt bound) listed,
        showsBar_of_mem_lineRows h past bound listed⟩
    · rw [List.mem_singleton.mp gap]
      exact ⟨corner?_gapRow h k, showsBar_gapRow h past bound⟩
  · intro row member
    rcases after row member with ⟨k, past, listed⟩ | ⟨_, k, _, gap⟩
    · exact corner?_of_mem_lineRows h (by omega) (Nat.ne_of_gt past) listed
    · rw [List.mem_singleton.mp gap]
      exact corner?_gapRow h k

end FileRecord

/-!
# The rows of a file
-/

namespace Plan
namespace FileOf

variable {base : FileBase} {options : Options} {first : Int} {diagnostic : Diagnostic}
  {file : PlannedFile} {record : FileRecord} {column : Nat} {label : Label}

/-- Around its snippet a file has no corners. -/
theorem corner?_frame (column : Nat) :
    (∀ row ∈ file.openingRows, row.corner? column = none) ∧
      ∀ isClosed, ∀ row ∈ file.closingRows isClosed, row.corner? column = none := by
  have blanks : ∀ cell ∈ file.emptyRow.gutter, cell = .blank := by
    intro cell member
    rcases List.mem_map.mp member with ⟨_, _, same⟩
    exact same.symm
  have empty := Row.corner?_eq_none_of_blanks blanks column
  constructor
  · intro row member
    rcases List.mem_cons.mp member with this | last
    · rw [this]
      rfl
    · rw [List.mem_singleton.mp last]
      exact empty
  · intro isClosed row member
    rw [PlannedFile.closingRows] at member
    split at member
    · rw [List.mem_singleton.mp member]
      exact empty
    · cases member

/-- From the opening corner of a label to its closing corner the rows show its bar, except for those
of the first line that are broken. No other row has a corner of its bracket. -/
theorem exists_block_eq (known : FileOf base options first diagnostic file record)
    (h : (record.bracketed (diagnostic.labelsIn file.id))[column]? = some label)
    (isClosed : Bool) :
    ∃ above between below,
      file.block base options first diagnostic isClosed =
        above ++
          record.rowsAbove options first (diagnostic.labelsIn file.id) column label ++
          record.openingRow options first (diagnostic.labelsIn file.id) column label ::
          (record.brokenRows options first (diagnostic.labelsIn file.id) column label ++
            between ++
            record.rowsUpTo options first (diagnostic.labelsIn file.id)
              (record.lineAt label.stop) column ++
            record.closingRow options (diagnostic.labelsIn file.id) column label :: below) ∧
      (∀ row ∈ above, row.corner? column = none) ∧
      (∀ row ∈ between, row.corner? column = none ∧ row.ShowsBar column) ∧
      ∀ row ∈ below, row.corner? column = none := by
  have given := (List.mem_filter.mp (List.mem_of_getElem? h)).1
  have order := FileRecord.lineAt_start_lt_stop (List.mem_of_getElem? h)
  have sorted := List.pairwise_map.mpr known.pairwise_renderedLines
  have start := (known.mem_index_renderedLines (record.lineAt label.start)).mpr
    ⟨label, given, Or.inl rfl⟩
  have stop := (known.mem_index_renderedLines (record.lineAt label.stop)).mpr
    ⟨label, given, Or.inr (Or.inl rfl)⟩
  have frame := @corner?_frame file column
  rcases @FileRecord.exists_snippetRows_eq record options first (diagnostic.labelsIn file.id) column
      label (file.renderedLines.map (·.index)) h sorted start stop with
    ⟨above, between, below, rows_eq, before, inside, after⟩
  rw [FileRecord.lineRows_start h, FileRecord.lineRows_stop h] at rows_eq
  refine ⟨file.openingRows ++ above,
    record.endRowsRight options first (diagnostic.labelsIn file.id) (record.lineAt label.start)
      column ++ between,
    record.endRowsRight options first (diagnostic.labelsIn file.id) (record.lineAt label.stop)
      column ++ (below ++ file.closingRows isClosed), ?_, ?_, ?_, ?_⟩
  · rw [PlannedFile.block, known.snippetRows_eq, rows_eq]
    simp only [List.append_assoc, List.cons_append]
  · intro row member
    rcases List.mem_append.mp member with opening | member
    · exact frame.1 row opening
    · exact before row member
  · intro row member
    rcases List.mem_append.mp member with right | member
    · exact ⟨FileRecord.corner?_of_mem_endRowsRight h right,
        FileRecord.showsBar_of_mem_endRowsRight h (Nat.le_refl _) order right⟩
    · exact inside row member
  · intro row member
    rcases List.mem_append.mp member with right | member
    · exact FileRecord.corner?_of_mem_endRowsRight h right
    · rcases List.mem_append.mp member with member | closing
      · exact after row member
      · exact frame.2 isClosed row closing

end FileOf
end Plan
end SourceReport

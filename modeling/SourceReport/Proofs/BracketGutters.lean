import SourceReport.Proofs.BracketLayout

/-!
# The gutter of a bracket row

The row of a bracket's end has a corner in the bracket's own column. To the left of it every column
is blank or holds a bar, and to the right of it the run of the bracket goes on, across the bars of
the brackets that are open there.
-/

namespace SourceReport

/-- The end that a part of a bracket draws, if it draws one. -/
def BracketPart.end? : BracketPart → Option BracketEnd
  | .top _ => some .top
  | .left => none
  | .bottom _ _ => some .bottom

namespace Gutter

/-!
# Columns and places

The entries of a line ascend in their columns, so an entry stands before another one in the list
exactly if its column does.
-/

variable {entries : List BracketEntry} {own entry : BracketEntry} {place index column : Nat}
  {stop : BracketEnd}

theorem lt_iff_column_lt
    (ascending : entries.Pairwise fun entry next => entry.column < next.column)
    (h : entries[index]? = some entry) (placed : entries[place]? = some own) :
    index < place ↔ entry.column < own.column := by
  rcases List.getElem?_eq_some_iff.mp h with ⟨inside, rfl⟩
  rcases List.getElem?_eq_some_iff.mp placed with ⟨bound, rfl⟩
  rw [List.pairwise_iff_getElem] at ascending
  constructor
  · intro order
    exact ascending index place inside bound order
  · intro order
    rcases Nat.lt_trichotomy index place with before | same | after
    · exact before
    · subst same
      omega
    · have reversed := ascending place index bound inside after
      omega

theorem placedAt?_eq_some (h : placedAt? entries column = some (entry, index)) :
    entries[index]? = some entry ∧ entry.column = column := by
  have member := List.mem_reverse.mp (List.mem_of_find?_eq_some h)
  have same := List.find?_some h
  exact ⟨List.mem_zipIdx_iff_getElem?.mp member, of_decide_eq_true same⟩

theorem map_fst_placedAt? (entries : List BracketEntry) (column : Nat) :
    (placedAt? entries column).map Prod.fst = BracketEntry.atColumn? entries column := by
  have firsts : entries.zipIdx.map Prod.fst = entries := List.zipIdx_map_fst 0 entries
  rw [BracketEntry.atColumn?, ← firsts, ← List.map_reverse, List.find?_map, firsts]
  rfl

/-!
# The run
-/

/-- The run of a bracket's row as it reaches a column: it begins after the bracket's own one. -/
def runAt (own : BracketEntry) (stop : BracketEnd) (column : Nat) : Run :=
  if own.column < column then some (stop, own.style) else none

theorem runAt_succ (h : column ≠ own.column) :
    runAt own stop (column + 1) = runAt own stop column := by
  rw [runAt, runAt]
  by_cases before : own.column < column
  · rw [if_pos before, if_pos (Nat.lt_succ_of_lt before)]
  · have after : ¬ own.column < column + 1 := by omega
    rw [if_neg before, if_neg after]

/-- The cell of a column in the row of a bracket, by the entry that the column shows. -/
def cellBeside (own : BracketEntry) (stop : BracketEnd) (column : Nat) :
    Option BracketEntry → GutterCell
  | none => runCell (runAt own stop column)
  | some entry =>
      if column = own.column then .corner stop own.style
      else
        match entry.part with
        | .left => barCell (runAt own stop column) entry.style
        | .top _ =>
            if column < own.column then barCell (runAt own stop column) entry.style
            else runCell (runAt own stop column)
        | .bottom _ _ =>
            if own.column < column then barCell (runAt own stop column) entry.style
            else runCell (runAt own stop column)

theorem bracketCell_corner (shown : placedAt? entries column = some (own, place))
    (ends : own.part.end? = some stop) (run : Run) :
    bracketCell entries place run column =
      (.corner stop own.style, some (stop, own.style)) := by
  rw [bracketCell, shown]
  cases part : own.part with
  | left =>
      rw [part] at ends
      cases ends
  | top start =>
      rw [part] at ends
      cases ends
      simp only [part, Nat.lt_irrefl, if_false, if_true]
  | bottom last message =>
      rw [part] at ends
      cases ends
      simp only [part, Nat.lt_irrefl, if_false, if_true]

theorem bracketCell_own (placed : placedAt? entries own.column = some (own, place))
    (ends : own.part.end? = some stop) :
    bracketCell entries place (runAt own stop own.column) own.column =
      (.corner stop own.style, runAt own stop (own.column + 1)) := by
  have begun : runAt own stop (own.column + 1) = some (stop, own.style) :=
    if_pos (Nat.lt_succ_self own.column)
  rw [bracketCell_corner placed ends, begun]

theorem bracketCell_eq
    (ascending : entries.Pairwise fun entry next => entry.column < next.column)
    (placed : entries[place]? = some own) (ends : own.part.end? = some stop) (column : Nat) :
    bracketCell entries place (runAt own stop column) column =
      (cellBeside own stop column (BracketEntry.atColumn? entries column),
        runAt own stop (column + 1)) := by
  rw [← map_fst_placedAt?]
  cases found : placedAt? entries column with
  | none =>
      have other : column ≠ own.column := by
        intro same
        have member : (own, place) ∈ entries.zipIdx := List.mem_zipIdx_iff_getElem?.mpr placed
        have differs := List.find?_eq_none.mp found (own, place) (List.mem_reverse.mpr member)
        exact differs (decide_eq_true same.symm)
      rw [bracketCell, found, runAt_succ other]
      rfl
  | some shown =>
      rcases shown with ⟨entry, index⟩
      rcases placedAt?_eq_some found with ⟨listed, rfl⟩
      have before := lt_iff_column_lt ascending listed placed
      have after := lt_iff_column_lt ascending placed listed
      by_cases same : entry.column = own.column
      · have here : index = place := by omega
        subst here
        rw [listed] at placed
        cases placed
        rw [bracketCell_own found ends, Option.map_some, cellBeside, if_pos rfl]
      · have elsewhere : index ≠ place := by omega
        rw [bracketCell, found, runAt_succ same, Option.map_some, cellBeside, if_neg same]
        cases part : entry.part with
        | left => simp only [part]
        | top start =>
            simp only [part, before, elsewhere, if_false]
            split <;> rfl
        | bottom last message =>
            simp only [part, after, elsewhere, if_false]
            split <;> rfl

theorem bracketCells_eq
    (ascending : entries.Pairwise fun entry next => entry.column < next.column)
    (placed : entries[place]? = some own) (ends : own.part.end? = some stop)
    (start count : Nat) :
    bracketCells entries place (runAt own stop start) (List.range' start count) =
      (List.range' start count).map fun column =>
        cellBeside own stop column (BracketEntry.atColumn? entries column) := by
  induction count generalizing start with
  | zero => rfl
  | succ count ih =>
      rw [List.range'_succ, bracketCells, bracketCell_eq ascending placed ends, List.map_cons,
        ← ih (start + 1)]

theorem ofBracket_eq
    (ascending : entries.Pairwise fun entry next => entry.column < next.column)
    (placed : entries[place]? = some own) (ends : own.part.end? = some stop) (columns : Nat) :
    ofBracket entries columns place =
      cells columns fun column =>
        cellBeside own stop column (BracketEntry.atColumn? entries column) := by
  have unbegun : runAt own stop 0 = none := if_neg (Nat.not_lt_zero _)
  rw [ofBracket, cells, List.range_eq_range', ← unbegun]
  exact bracketCells_eq ascending placed ends 0 columns

end Gutter

namespace FileRecord

variable (record : FileRecord) (options : Options) (first : Int) (labels : List Label)

/-!
# The row of a label
-/

/-- On line `i` the label in a column is open beside the row of the bracket in column `own`: it goes
on there, it has begun to the left, or it is to end further right. -/
def IsBeside (i own column : Nat) (label : Label) : Prop :=
  (record.lineAt label.start < i ∧ i < record.lineAt label.stop) ∨
    (i = record.lineAt label.start ∧ column < own) ∨
    (i = record.lineAt label.stop ∧ own < column)

instance (i own column : Nat) (label : Label) : Decidable (record.IsBeside i own column label) :=
  inferInstanceAs (Decidable (_ ∨ _ ∨ _))

/-- The gutter cell of a label in the row of the bracket `own`. -/
def cellOf (i : Nat) (own : BracketEntry) (stop : BracketEnd) (label : Label × Nat) : GutterCell :=
  if label.2 = own.column then .corner stop own.style
  else if record.IsBeside i own.column label.2 label.1 then
    Gutter.barCell (Gutter.runAt own stop label.2) label.1.style
  else Gutter.runCell (Gutter.runAt own stop label.2)

variable {labels}

theorem cellBeside_atColumn? (i : Nat) {own : BracketEntry} {stop : BracketEnd}
    (h : own ∈ record.entriesAt options first labels i) {column : Nat} {label : Label}
    (listed : (record.bracketed labels)[column]? = some label) :
    Gutter.cellBeside own stop column
        (BracketEntry.atColumn? (record.entriesAt options first labels i) column) =
      record.cellOf i own stop (label, column) := by
  have order := lineAt_start_lt_stop (List.mem_of_getElem? listed)
  rw [record.atColumn?_entriesAt options first labels i listed, cellOf]
  by_cases same : column = own.column
  · rcases mem_entriesAt_iff.mp h with ⟨place, other, found, entry⟩
    have there := Plan.column_entryAt? entry
    rw [← there, ← same, listed] at found
    cases found
    rw [if_pos same, same, there, entry, Gutter.cellBeside, if_pos there.symm]
  · rw [if_neg same]
    rcases entryAt?_cases order i column with
      ⟨_, entry⟩ | ⟨this, entry⟩ | ⟨within, entry⟩ | ⟨this, entry⟩
    · have apart : ¬ record.IsBeside i own.column column label := by unfold IsBeside; omega
      rw [entry, if_neg apart]
      rfl
    · rw [entry, Gutter.cellBeside, if_neg same]
      by_cases left : column < own.column
      · have beside : record.IsBeside i own.column column label := Or.inr (Or.inl ⟨this, left⟩)
        rw [if_pos left, if_pos beside]
      · have apart : ¬ record.IsBeside i own.column column label := by unfold IsBeside; omega
        rw [if_neg left, if_neg apart]
    · have beside : record.IsBeside i own.column column label := Or.inl within
      rw [entry, Gutter.cellBeside, if_neg same, if_pos beside]
    · rw [entry, Gutter.cellBeside, if_neg same]
      by_cases right : own.column < column
      · have beside : record.IsBeside i own.column column label := Or.inr (Or.inr ⟨this, right⟩)
        rw [if_pos right, if_pos beside]
      · have apart : ¬ record.IsBeside i own.column column label := by unfold IsBeside; omega
        rw [if_neg right, if_neg apart]

theorem ofBracket_entriesAt (i : Nat) {place : Nat} {own : BracketEntry} {stop : BracketEnd}
    (placed : (record.entriesAt options first labels i)[place]? = some own)
    (ends : own.part.end? = some stop) :
    Gutter.ofBracket (record.entriesAt options first labels i)
        (record.columns options first labels) place =
      (record.bracketed labels).zipIdx.map (record.cellOf i own stop) := by
  have ascending := record.pairwise_entriesAt options first labels i
  have count : record.columns options first labels = (record.bracketed labels).zipIdx.length := by
    rw [columns_eq, List.length_zipIdx]
  rw [Gutter.ofBracket_eq ascending placed ends]
  apply Gutter.cells_eq count
  intro column shown found
  rw [List.getElem?_zipIdx, Option.map_eq_some_iff, Nat.zero_add] at found
  rcases found with ⟨label, listed, rfl⟩
  exact record.cellBeside_atColumn? options first i (List.mem_of_getElem? placed) listed

end FileRecord
end SourceReport

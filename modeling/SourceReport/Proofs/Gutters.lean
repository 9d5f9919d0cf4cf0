import SourceReport.Proofs.Snippets

/-!
# Gutters of a snippet

A gutter has a cell for every label over several lines. Where no label begins or ends the cell holds
a bar if the label goes on there, and nothing otherwise.
-/

namespace SourceReport
namespace Plan

/-!
# Entries by column
-/

/-- The entry of a placement in its column, if its bracket crosses the line. -/
def entryAt? (i column : Nat) (placement : Placement) : Option BracketEntry :=
  (placement.part? i).map fun part => { column, style := placement.label.style, part }

theorem column_entryAt? {i column : Nat} {placement : Placement} {entry : BracketEntry}
    (h : entryAt? i column placement = some entry) : entry.column = column := by
  rcases Option.map_eq_some_iff.mp h with ⟨part, _, rfl⟩
  rfl

/-- A column holds the entry of its own placement and no other. -/
theorem filter_entries (placements : List Placement) (i start column : Nat) :
    ((placements.zipIdx start).filterMap fun entry => entryAt? i entry.2 entry.1).filter
        (fun entry => entry.column = start + column) =
      (placements[column]?.bind (entryAt? i (start + column))).toList := by
  induction placements generalizing start column with
  | nil => rfl
  | cons placement rest ih =>
      rw [List.zipIdx_cons, List.filterMap_cons]
      -- The first placement has the first column, and the others have the columns after it.
      cases column with
      | zero =>
          have later : ((rest.zipIdx (start + 1)).filterMap fun entry =>
              entryAt? i entry.2 entry.1).filter (fun entry => entry.column = start + 0) = [] := by
            rw [List.filter_eq_nil_iff]
            intro entry member
            rcases List.mem_filterMap.mp member with ⟨⟨other, place⟩, listed, found⟩
            have beyond := List.le_snd_of_mem_zipIdx listed
            have same := column_entryAt? found
            rw [decide_eq_true_eq]
            omega
          rw [List.getElem?_cons_zero, Option.bind_some, Nat.add_zero]
          rw [Nat.add_zero] at later
          cases found : entryAt? i start placement with
          | none => exact later
          | some entry =>
              have place := column_entryAt? found
              simp only [List.filter_cons, place, decide_true, if_true, later,
                Option.toList_some]
      | succ column =>
          have next := ih (start + 1) column
          rw [Nat.add_assoc, Nat.add_comm 1 column] at next
          rw [List.getElem?_cons_succ, ← next]
          cases found : entryAt? i start placement with
          | none => rfl
          | some entry =>
              have place := column_entryAt? found
              have other : ¬ entry.column = start + (column + 1) := by omega
              simp only [List.filter_cons, other, decide_false, Bool.false_eq_true, if_false]

theorem filter_bracketEntries (placements : List Placement) (i column : Nat) :
    (bracketEntries placements i).filter (fun entry => entry.column = column) =
      ((bracketed placements)[column]?.bind (entryAt? i column)).toList := by
  have found := filter_entries (bracketed placements) i 0 column
  rw [Nat.zero_add] at found
  exact found

theorem atColumn?_bracketEntries (placements : List Placement) (i column : Nat) :
    BracketEntry.atColumn? (bracketEntries placements i) column =
      (bracketed placements)[column]?.bind (entryAt? i column) := by
  rw [BracketEntry.atColumn?, ← List.head?_filter, List.filter_reverse, filter_bracketEntries]
  cases (bracketed placements)[column]?.bind (entryAt? i column) with
  | none => rfl
  | some entry => rfl

end Plan

theorem Gutter.cells_eq {α : Type} {list : List α} {columns : Nat} {cell : Nat → GutterCell}
    {shown : α → GutterCell} (count : columns = list.length)
    (h : ∀ column x, list[column]? = some x → cell column = shown x) :
    Gutter.cells columns cell = list.map shown := by
  rw [Gutter.cells, count]
  apply List.ext_getElem?
  intro column
  rw [List.getElem?_map, List.getElem?_map]
  cases found : list[column]? with
  | none =>
      have beyond : list.length ≤ column := List.getElem?_eq_none_iff.mp found
      rw [List.getElem?_eq_none (by rw [List.length_range]; exact beyond)]
      rfl
  | some x =>
      have inside : column < list.length := (List.getElem?_eq_some_iff.mp found).1
      rw [List.getElem?_range inside, Option.map_some, Option.map_some, h column x found]

namespace FileRecord

variable (record : FileRecord) (options : Options) (first : Int) (labels : List Label)

/-!
# Bars
-/

/-- A bar for each label over several lines that begins on or before line `above` and ends on or
after line `below`, and a blank for every other one. -/
def bars (above below : Nat) : List GutterCell :=
  (record.bracketed labels).map fun label =>
    if record.lineAt label.start ≤ above ∧ below ≤ record.lineAt label.stop then
      .bar label.style
    else .blank

theorem columns_eq : record.columns options first labels = (record.bracketed labels).length := by
  rw [columns, bracketed_placement, List.length_map]

theorem atColumn?_entriesAt {column : Nat} {label : Label} (i : Nat)
    (h : (record.bracketed labels)[column]? = some label) :
    BracketEntry.atColumn? (record.entriesAt options first labels i) column =
      Plan.entryAt? i column (record.placement options first label) := by
  rw [entriesAt, Plan.atColumn?_bracketEntries, bracketed_placement, List.getElem?_map, h]
  rfl

variable {record labels}

theorem mem_entriesAt_iff {options : Options} {first : Int} {i : Nat} {entry : BracketEntry} :
    entry ∈ record.entriesAt options first labels i ↔
      ∃ column label, (record.bracketed labels)[column]? = some label ∧
        Plan.entryAt? i column (record.placement options first label) = some entry := by
  rw [entriesAt, Plan.bracketEntries, bracketed_placement, List.mem_filterMap]
  constructor
  · intro listed
    rcases listed with ⟨⟨placement, column⟩, member, part⟩
    rw [List.mem_zipIdx_iff_getElem?, List.getElem?_map, Option.map_eq_some_iff] at member
    rcases member with ⟨label, listed, rfl⟩
    exact ⟨column, label, listed, part⟩
  · intro found
    rcases found with ⟨column, label, listed, part⟩
    refine ⟨(record.placement options first label, column), ?_, part⟩
    rw [List.mem_zipIdx_iff_getElem?, List.getElem?_map, listed]
    rfl

theorem lineAt_start_lt_stop {label : Label} (h : label ∈ record.bracketed labels) :
    record.lineAt label.start < record.lineAt label.stop := by
  have order := record.lineAt_start_le_stop label
  have several := (List.mem_filter.mp h).2
  rw [isSingle, Bool.not_eq_true', decide_eq_false_iff_not] at several
  omega

/-!
# The entry of a label on a line
-/

variable {options first} {i column : Nat} {label : Label}

theorem entryAt?_first :
    Plan.entryAt? (record.lineAt label.start) column (record.placement options first label) =
      some ⟨column, label.style,
        .top (label.start - record.startOf (record.lineAt label.start))⟩ := by
  rw [Plan.entryAt?, Placement.part?, first_placement, if_pos rfl]
  rfl

theorem entryAt?_last (several : record.lineAt label.start < record.lineAt label.stop) :
    Plan.entryAt? (record.lineAt label.stop) column (record.placement options first label) =
      some ⟨column, label.style,
        .bottom (label.stop - record.startOf (record.lineAt label.stop)) label.message⟩ := by
  have below : record.lineAt label.stop ≠ record.lineAt label.start := by omega
  rw [Plan.entryAt?, Placement.part?, first_placement, last_placement, if_neg below, if_pos rfl]
  rfl

theorem entryAt?_between (above : record.lineAt label.start < i)
    (below : i < record.lineAt label.stop) :
    Plan.entryAt? i column (record.placement options first label) =
      some ⟨column, label.style, .left⟩ := by
  have start : i ≠ record.lineAt label.start := by omega
  have stop : i ≠ record.lineAt label.stop := by omega
  rw [Plan.entryAt?, Placement.part?, first_placement, last_placement, if_neg start, if_neg stop,
    if_pos ⟨above, below⟩]
  rfl

theorem entryAt?_outside (h : i < record.lineAt label.start ∨ record.lineAt label.stop < i) :
    Plan.entryAt? i column (record.placement options first label) = none := by
  have order := record.lineAt_start_le_stop label
  have start : i ≠ record.lineAt label.start := by omega
  have stop : i ≠ record.lineAt label.stop := by omega
  have apart : ¬ (record.lineAt label.start < i ∧ i < record.lineAt label.stop) := by omega
  rw [Plan.entryAt?, Placement.part?, first_placement, last_placement, if_neg start, if_neg stop,
    if_neg apart]
  rfl

/-- A label over several lines has its top on the first of them, its bottom on the last one, a part
between on each of the others, and nothing elsewhere. -/
theorem entryAt?_cases (several : record.lineAt label.start < record.lineAt label.stop)
    (i column : Nat) :
    (i < record.lineAt label.start ∨ record.lineAt label.stop < i) ∧
        Plan.entryAt? i column (record.placement options first label) = none ∨
      i = record.lineAt label.start ∧
        Plan.entryAt? i column (record.placement options first label) = some
          ⟨column, label.style, .top (label.start - record.startOf (record.lineAt label.start))⟩ ∨
      (record.lineAt label.start < i ∧ i < record.lineAt label.stop) ∧
        Plan.entryAt? i column (record.placement options first label) =
          some ⟨column, label.style, .left⟩ ∨
      i = record.lineAt label.stop ∧
        Plan.entryAt? i column (record.placement options first label) = some ⟨column, label.style,
          .bottom (label.stop - record.startOf (record.lineAt label.stop)) label.message⟩ := by
  rcases Nat.lt_trichotomy i (record.lineAt label.start) with before | rfl | above
  · exact Or.inl ⟨Or.inl before, entryAt?_outside (Or.inl before)⟩
  · exact Or.inr (Or.inl ⟨rfl, entryAt?_first⟩)
  · rcases Nat.lt_trichotomy i (record.lineAt label.stop) with below | rfl | after
    · exact Or.inr (Or.inr (Or.inl ⟨⟨above, below⟩, entryAt?_between above below⟩))
    · exact Or.inr (Or.inr (Or.inr ⟨rfl, entryAt?_last several⟩))
    · exact Or.inl ⟨Or.inr after, entryAt?_outside (Or.inr after)⟩

variable (record options first labels)

/-!
# Bars beside a line
-/

/-- Below the source row of a line there is a bar for every label that began above it. -/
theorem ofLine_entriesAt (i : Nat) :
    Gutter.ofLine (record.entriesAt options first labels i) (record.columns options first labels) =
      (record.bracketed labels).map fun label =>
        if record.lineAt label.start < i ∧ i ≤ record.lineAt label.stop then .bar label.style
        else .blank := by
  apply Gutter.cells_eq (record.columns_eq options first labels)
  intro column label found
  have order := lineAt_start_lt_stop (List.mem_of_getElem? found)
  rw [record.atColumn?_entriesAt options first labels i found]
  rcases entryAt?_cases order i column with
    ⟨_, entry⟩ | ⟨_, entry⟩ | ⟨_, entry⟩ | ⟨_, entry⟩
  · have outside : ¬ (record.lineAt label.start < i ∧ i ≤ record.lineAt label.stop) := by omega
    rw [entry, if_neg outside]
  · have outside : ¬ (record.lineAt label.start < i ∧ i ≤ record.lineAt label.stop) := by omega
    rw [entry, if_neg outside]
  · have inside : record.lineAt label.start < i ∧ i ≤ record.lineAt label.stop := by omega
    rw [entry, if_pos inside]
  · have inside : record.lineAt label.start < i ∧ i ≤ record.lineAt label.stop := by omega
    rw [entry, if_pos inside]

/-- The source row of a line has the corner of a label that begins in its indentation, and a bar for
every label that began above it. -/
theorem ofSource_entriesAt (i indent : Nat) :
    Gutter.ofSource (record.entriesAt options first labels i)
        (record.columns options first labels) indent =
      (record.bracketed labels).map fun label =>
        if i = record.lineAt label.start then
          if (label.start : Int) - record.startOf i ≤ indent then .corner .top label.style else .blank
        else if record.lineAt label.start < i ∧ i ≤ record.lineAt label.stop then .bar label.style
        else .blank := by
  apply Gutter.cells_eq (record.columns_eq options first labels)
  intro column label found
  have order := lineAt_start_lt_stop (List.mem_of_getElem? found)
  rw [record.atColumn?_entriesAt options first labels i found]
  rcases entryAt?_cases order i column with
    ⟨_, entry⟩ | ⟨this, entry⟩ | ⟨_, entry⟩ | ⟨_, entry⟩
  · have other : i ≠ record.lineAt label.start := by omega
    have outside : ¬ (record.lineAt label.start < i ∧ i ≤ record.lineAt label.stop) := by omega
    rw [entry, if_neg other, if_neg outside]
  · rw [entry, if_pos this, this]
  · have other : i ≠ record.lineAt label.start := by omega
    have inside : record.lineAt label.start < i ∧ i ≤ record.lineAt label.stop := by omega
    rw [entry, if_neg other, if_pos inside]
  · have other : i ≠ record.lineAt label.start := by omega
    have inside : record.lineAt label.start < i ∧ i ≤ record.lineAt label.stop := by omega
    rw [entry, if_neg other, if_pos inside]

/-- On a line where no label begins the source row has the same gutter as the rows below it. -/
theorem ofSource_eq_ofLine {i : Nat} (h : ∀ label ∈ labels, record.lineAt label.start ≠ i)
    (indent : Nat) :
    Gutter.ofSource (record.entriesAt options first labels i)
        (record.columns options first labels) indent =
      Gutter.ofLine (record.entriesAt options first labels i)
        (record.columns options first labels) := by
  rw [ofSource_entriesAt, ofLine_entriesAt]
  apply List.map_congr_left
  intro label member
  have other : i ≠ record.lineAt label.start :=
    Ne.symm (h label (List.mem_filter.mp member).1)
  rw [if_neg other]

end FileRecord
end SourceReport

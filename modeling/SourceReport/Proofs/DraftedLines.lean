import SourceReport.Plan.Draft
import SourceReport.Proofs.Snippets

/-!
# Drafted lines

A label changes each line that it touches once. By these changes the lines that are planned from
some labels become those that are planned from one label more.
-/

namespace SourceReport
namespace Plan
namespace Draft

variable {lookup : Lookup} {planned : LineSpan → PlannedLine}

/-!
# Changes of lines
-/

/-- What spans become after a change of the line at one of them. -/
def changed (planned : LineSpan → PlannedLine)
    (change : LineSpan × (PlannedLine → PlannedLine)) (span : LineSpan) : PlannedLine :=
  if span.index = change.1.index then change.2 (planned span) else planned span

theorem map_changed_of_lt {change : LineSpan × (PlannedLine → PlannedLine)}
    {spans : List LineSpan} (below : ∀ span ∈ spans, change.1.index < span.index) :
    spans.map (changed planned change) = spans.map planned := by
  apply List.map_congr_left
  intro span member
  exact if_neg (Nat.ne_of_gt (below span member))

/-- A line is changed where it stands, or put in its place and changed there. -/
theorem onLine_map {spans : List LineSpan} (ascending : spans.Pairwise fun a b => a.index < b.index)
    (indexed : ∀ span, (planned span).index = span.index)
    (change : LineSpan × (PlannedLine → PlannedLine))
    (fresh : change.1.index ∉ spans.map (·.index) → planned change.1 = .blank lookup change.1) :
    onLine lookup change.1 change.2 (spans.map planned) =
      (insertLine change.1 spans).map (changed planned change) := by
  induction spans with
  | nil =>
      have new := fresh List.not_mem_nil
      rw [List.map_nil, onLine, insertLine, List.map_singleton, changed, if_pos rfl, new]
  | cons head rest ih =>
      rcases List.pairwise_cons.mp ascending with ⟨below, others⟩
      rw [List.map_cons, onLine, insertLine, indexed]
      split
      · rename_i before
        have missing : change.1.index ∉ (head :: rest).map (·.index) := by
          intro listed
          rcases List.mem_map.mp listed with ⟨span, member, same⟩
          rcases List.mem_cons.mp member with rfl | later
          · omega
          · have := below span later
            omega
        have later : ∀ span ∈ head :: rest, change.1.index < span.index := by
          rw [List.forall_mem_cons]
          exact ⟨before, fun span member => Nat.lt_trans before (below span member)⟩
        have here : changed planned change change.1 = change.2 (planned change.1) := if_pos rfl
        rw [List.map_cons, here, map_changed_of_lt later, fresh missing, List.map_cons]
      · split
        · rename_i same
          have later : ∀ span ∈ rest, change.1.index < span.index := by
            rw [same]
            exact below
          rw [List.map_cons, map_changed_of_lt later, changed, if_pos same.symm]
        · rename_i other
          have missing : change.1.index ∉ rest.map (·.index) →
              planned change.1 = .blank lookup change.1 := by
            intro absent
            apply fresh
            rw [List.map_cons, List.mem_cons, not_or]
            exact ⟨other, absent⟩
          rw [List.map_cons, ih others missing, changed, if_neg (Ne.symm other)]

theorem onLines_map {spans : List LineSpan}
    (ascending : spans.Pairwise fun a b => a.index < b.index)
    (indexed : ∀ span, (planned span).index = span.index)
    {changes : List (LineSpan × (PlannedLine → PlannedLine))}
    (keeps : ∀ change ∈ changes, ∀ line, (change.2 line).index = line.index)
    (fresh : ∀ change ∈ changes, change.1.index ∉ spans.map (·.index) →
      planned change.1 = .blank lookup change.1) :
    onLines lookup changes (spans.map planned) =
      (insertLines spans (changes.map (·.1))).map (changes.foldl changed planned) := by
  induction changes generalizing spans planned with
  | nil => rfl
  | cons change rest ih =>
      rw [List.forall_mem_cons] at keeps fresh
      have now := onLine_map ascending indexed change fresh.1
      have kept : ∀ span, (changed planned change span).index = span.index := by
        intro span
        rw [changed]
        split
        · rw [keeps.1, indexed]
        · exact indexed span
      have others : ∀ later ∈ rest,
          later.1.index ∉ (insertLine change.1 spans).map (·.index) →
            changed planned change later.1 = .blank lookup later.1 := by
        intro later member absent
        rw [mem_index_insertLine, not_or] at absent
        rw [changed, if_neg absent.1]
        exact fresh.2 later member absent.2
      have next := ih (pairwise_insertLine ascending change.1) kept keeps.2 others
      rw [onLines, List.foldl_cons, now]
      exact next

/-- Changes of other lines leave a line as it is. -/
theorem foldl_changed_of_not_mem {changes : List (LineSpan × (PlannedLine → PlannedLine))}
    {span : LineSpan} (missing : span.index ∉ changes.map (·.1.index)) :
    changes.foldl changed planned span = planned span := by
  induction changes generalizing planned with
  | nil => rfl
  | cons change rest ih =>
      rw [List.map_cons, List.mem_cons, not_or] at missing
      rw [List.foldl_cons, ih missing.2, changed, if_neg missing.1]

/-- Of changes of different lines, only one changes a line. -/
theorem foldl_changed_of_mem {changes : List (LineSpan × (PlannedLine → PlannedLine))}
    (apart : changes.Pairwise fun a b => a.1.index ≠ b.1.index)
    {change : LineSpan × (PlannedLine → PlannedLine)} (member : change ∈ changes) :
    changes.foldl changed planned change.1 = change.2 (planned change.1) := by
  induction changes generalizing planned with
  | nil => cases member
  | cons head rest ih =>
      rcases List.pairwise_cons.mp apart with ⟨differs, others⟩
      rw [List.foldl_cons]
      rcases List.mem_cons.mp member with rfl | later
      · have missing : change.1.index ∉ rest.map (·.1.index) := by
          intro listed
          rcases List.mem_map.mp listed with ⟨next, given, same⟩
          exact differs next given same.symm
        rw [foldl_changed_of_not_mem missing, changed, if_pos rfl]
      · rw [ih others later, changed, if_neg (Ne.symm (differs change later))]

/-- The changes that a placed label makes to the lines of its file. -/
def changesOf (options : Options) (column : Nat) (placement : Placement) :
    List (LineSpan × (PlannedLine → PlannedLine)) :=
  (placement.before ++ placement.after).map (fun span => (span, PlannedLine.require)) ++
    if placement.isSingle then [(placement.first, PlannedLine.addSingle placement.singleMark)]
    else
      bracketChanges options placement.label column placement.first placement.last placement.middle

end Draft

/-!
# One more label on a line
-/

variable {lookup : Lookup} {options : Options} {placements : List Placement}

theorem bracketed_concat (placement : Placement) :
    bracketed (placements ++ [placement]) =
      bracketed placements ++ if placement.isSingle then [] else [placement] := by
  rw [bracketed, List.filter_append, ← bracketed, List.filter_singleton]
  cases placement.isSingle <;> rfl

theorem singleMarks_concat (placement : Placement) (line : Nat) :
    singleMarks (placements ++ [placement]) line =
      if placement.isSingle && placement.first.index = line then
        SingleMark.insert (singleMarks placements line) placement.singleMark
      else singleMarks placements line := by
  rw [singleMarks, List.filter_append, List.map_append, SingleMark.insertAll, List.foldl_append,
    ← SingleMark.insertAll, ← singleMarks, List.filter_singleton]
  cases placement.isSingle && placement.first.index = line <;> rfl

theorem bracketEntries_concat (placement : Placement) (line : Nat) :
    bracketEntries (placements ++ [placement]) line =
      bracketEntries placements line ++
        if placement.isSingle then []
        else
          ((placement.part? line).map fun part =>
            { column := (bracketed placements).length
              style := placement.label.style
              part }).toList := by
  rw [bracketEntries, bracketed_concat, List.zipIdx_append, List.filterMap_append, ← bracketEntries]
  cases placement.isSingle with
  | true => rfl
  | false =>
      cases part : placement.part? line <;> simp [part]

theorem plannedLine_concat (placement : Placement) (span : LineSpan) :
    plannedLine lookup options (placements ++ [placement]) span =
      { plannedLine lookup options placements span with
        mustRender := (plannedLine lookup options placements span).mustRender ||
          placement.shows options span.index
        single :=
          if placement.isSingle && placement.first.index = span.index then
            SingleMark.insert (singleMarks placements span.index) placement.singleMark
          else singleMarks placements span.index
        brackets := bracketEntries placements span.index ++
          if placement.isSingle then []
          else
            ((placement.part? span.index).map fun part =>
              { column := (bracketed placements).length
                style := placement.label.style
                part }).toList } := by
  rw [plannedLine, singleMarks_concat, bracketEntries_concat, List.any_append, List.any_cons,
    List.any_nil, Bool.or_false]
  rfl

/-!
# One more label in a file
-/

variable {record : FileRecord} {first : Int} {labels : List Label} {label : Label} {column : Nat}

theorem map_index_changesOf (placement : Placement) :
    (Draft.changesOf options column placement).map (·.1.index) =
      placement.before.map (·.index) ++ placement.after.map (·.index) ++
        if placement.isSingle then [placement.first.index]
        else placement.first.index :: placement.middle.map (·.index) ++ [placement.last.index] := by
  rw [Draft.changesOf, List.map_append, List.map_map, List.map_append]
  cases placement.isSingle with
  | true => rfl
  | false =>
      simp only [Draft.bracketChanges, Bool.false_eq_true, if_false, List.map_append, List.map_cons,
        List.map_map, List.map_nil]
      rfl

theorem isSingle_placement :
    (record.placement options first label).isSingle = true ↔
      record.lineAt label.start = record.lineAt label.stop := by
  rw [Placement.isSingle, decide_eq_true_eq]
  rfl

theorem mem_index_changesOf (i : Nat) :
    i ∈ (Draft.changesOf options column (record.placement options first label)).map (·.1.index) ↔
      record.Touches options label i := by
  have order := FileRecord.lineAt_start_le_stop record label
  have last := record.lineAt_lt_lineCount label.stop
  rw [map_index_changesOf, List.mem_append, List.mem_append, FileRecord.mem_index_before,
    FileRecord.mem_index_after, FileRecord.Touches]
  split
  · rename_i single
    rw [isSingle_placement] at single
    rw [List.mem_singleton, FileRecord.first_placement]
    omega
  · rw [List.mem_append, List.mem_cons, FileRecord.mem_index_middle, List.mem_singleton,
      FileRecord.first_placement, FileRecord.last_placement]
    omega

theorem nodup_index_changesOf :
    ((Draft.changesOf options column (record.placement options first label)).map
      (·.1.index)).Nodup := by
  have order := FileRecord.lineAt_start_le_stop record label
  have around : ((record.placement options first label).before.map (·.index) ++
      (record.placement options first label).after.map (·.index)).Nodup := by
    rw [List.nodup_append]
    refine ⟨?_, ?_, ?_⟩
    · rw [FileRecord.placement, List.map_reverse, List.nodup_reverse, FileRecord.map_index_span]
      exact List.nodup_range'
    · rw [FileRecord.placement, FileRecord.map_index_span]
      exact List.nodup_range'
    · intro i before j after
      rw [FileRecord.mem_index_before] at before
      rw [FileRecord.mem_index_after] at after
      omega
  rw [map_index_changesOf, List.nodup_append]
  refine ⟨around, ?_, ?_⟩
  · split
    · exact List.nodup_singleton _
    · rename_i several
      rw [isSingle_placement] at several
      rw [List.cons_append, List.nodup_cons, List.mem_append, List.mem_singleton,
        FileRecord.mem_index_middle, FileRecord.first_placement, FileRecord.last_placement,
        List.nodup_append]
      refine ⟨by omega, ?_, List.nodup_singleton _, ?_⟩
      · rw [FileRecord.placement, FileRecord.map_index_span]
        exact List.nodup_range'
      · intro i inside j last
        rw [FileRecord.mem_index_middle] at inside
        rw [List.mem_singleton] at last
        omega
  · intro i around j covered
    rw [List.mem_append, FileRecord.mem_index_before, FileRecord.mem_index_after] at around
    split at covered
    · rw [List.mem_singleton, FileRecord.first_placement] at covered
      omega
    · rw [List.mem_append, List.mem_cons, FileRecord.mem_index_middle, List.mem_singleton,
        FileRecord.first_placement, FileRecord.last_placement] at covered
      omega

theorem part?_placement_of_not_mem {i : Nat}
    (outside : i < record.lineAt label.start ∨ record.lineAt label.stop < i) :
    (record.placement options first label).part? i = none := by
  have order := FileRecord.lineAt_start_le_stop record label
  rw [Placement.part?, FileRecord.first_placement, FileRecord.last_placement, if_neg (by omega),
    if_neg (by omega), if_neg (by omega)]

/-- A line that the label does not touch stays as it is. -/
theorem plannedLine_concat_of_not_touches {span : LineSpan}
    (untouched : ¬ record.Touches options label span.index) (inside : span.index < record.lineCount) :
    plannedLine lookup options (placements ++ [record.placement options first label]) span =
      plannedLine lookup options placements span := by
  have hidden : (record.placement options first label).shows options span.index = false := by
    rw [← Bool.not_eq_true, FileRecord.shows_placement]
    intro shows
    exact untouched shows.touches
  have order := FileRecord.lineAt_start_le_stop record label
  unfold FileRecord.Touches at untouched
  have unmarked : (record.placement options first label).part? span.index = none :=
    part?_placement_of_not_mem (by omega)
  have elsewhere : (record.placement options first label).first.index ≠ span.index := by
    rw [FileRecord.first_placement]
    omega
  rw [plannedLine_concat, hidden, unmarked]
  simp only [elsewhere, decide_false, Bool.and_false, Bool.or_false, Option.map_none,
    Option.toList_none, Bool.false_eq_true, if_false, ite_self, List.append_nil]
  rfl

theorem require_plannedLine {span : LineSpan}
    (around : span ∈ (record.placement options first label).before ++
      (record.placement options first label).after) :
    PlannedLine.require (plannedLine lookup options placements span) =
      plannedLine lookup options (placements ++ [record.placement options first label]) span := by
  have near : (record.lineAt label.start ≤ span.index + options.before ∧
        span.index < record.lineAt label.start) ∨
      (record.lineAt label.stop < span.index ∧
        span.index ≤ record.lineAt label.stop + options.after ∧ span.index < record.lineCount) := by
    rcases List.mem_append.mp around with before | after
    · exact Or.inl (FileRecord.mem_index_before.mp (List.mem_map_of_mem before))
    · exact Or.inr (FileRecord.mem_index_after.mp (List.mem_map_of_mem after))
  have shown : (record.placement options first label).shows options span.index = true := by
    rw [FileRecord.shows_placement]
    exact Or.inr (Or.inr (Or.inr near))
  have order := FileRecord.lineAt_start_le_stop record label
  have unmarked : (record.placement options first label).part? span.index = none :=
    part?_placement_of_not_mem (by omega)
  have elsewhere : (record.placement options first label).first.index ≠ span.index := by
    rw [FileRecord.first_placement]
    omega
  rw [plannedLine_concat, shown, unmarked]
  simp only [elsewhere, decide_false, Bool.and_false, Bool.or_true, Option.map_none,
    Option.toList_none, Bool.false_eq_true, if_false, ite_self, List.append_nil]
  rfl

theorem addSingle_plannedLine (single : (record.placement options first label).isSingle = true) :
    PlannedLine.addSingle (record.placement options first label).singleMark
        (plannedLine lookup options placements (record.placement options first label).first) =
      plannedLine lookup options (placements ++ [record.placement options first label])
        (record.placement options first label).first := by
  have shown : (record.placement options first label).shows options
      (record.placement options first label).first.index = true := by
    rw [FileRecord.shows_placement]
    exact Or.inl rfl
  rw [plannedLine_concat, shown, single]
  simp only [decide_true, Bool.and_self, Bool.or_true, if_true, List.append_nil]
  rfl

/-- A bracket adds its part to each line that it crosses. -/
theorem addBracket_plannedLine (several : (record.placement options first label).isSingle = false)
    {span : LineSpan} {part : BracketPart} {shown : Bool}
    (holds : (record.placement options first label).part? span.index = some part)
    (shows : (record.placement options first label).shows options span.index = shown) :
    PlannedLine.addBracket { column := (bracketed placements).length, style := label.style, part }
        shown (plannedLine lookup options placements span) =
      plannedLine lookup options (placements ++ [record.placement options first label]) span := by
  rw [plannedLine_concat, shows, several, holds]
  rfl

theorem bracketChanges_effect (several : (record.placement options first label).isSingle = false) :
    let placement := record.placement options first label
    ∀ change ∈ Draft.bracketChanges options label (bracketed placements).length placement.first
        placement.last placement.middle,
      change.2 (plannedLine lookup options placements change.1) =
        plannedLine lookup options (placements ++ [placement]) change.1 := by
  intro placement change member
  have order := FileRecord.lineAt_start_le_stop record label
  have ends : record.lineAt label.start ≠ record.lineAt label.stop := by
    intro same
    rw [isSingle_placement.mpr same] at several
    cases several
  rcases List.mem_append.mp member with front | this
  · rcases List.mem_cons.mp front with rfl | inside
    · apply addBracket_plannedLine several
      · exact if_pos rfl
      · exact FileRecord.shows_placement _ |>.mpr (Or.inl rfl)
    · rcases List.mem_map.mp inside with ⟨span, between, rfl⟩
      have bounds := FileRecord.mem_index_middle.mp (List.mem_map_of_mem between)
      apply addBracket_plannedLine several
      · show (record.placement options first label).part? span.index = some .left
        rw [Placement.part?, FileRecord.first_placement, FileRecord.last_placement,
          if_neg (by omega), if_neg (by omega), if_pos bounds]
      · rw [Bool.eq_iff_iff, FileRecord.shows_placement, Bool.or_eq_true, decide_eq_true_eq,
          decide_eq_true_eq, FileRecord.Shows]
        simp only [FileRecord.first_placement, FileRecord.last_placement, placement]
        omega
  · rw [List.mem_singleton] at this
    subst this
    apply addBracket_plannedLine several
    · show (record.placement options first label).part? (record.lineAt label.stop) = _
      rw [Placement.part?, FileRecord.first_placement, FileRecord.last_placement,
        if_neg (Ne.symm ends), if_pos rfl]
      rfl
    · exact FileRecord.shows_placement _ |>.mpr (Or.inr (Or.inl rfl))

/-- Each change of a label gives what is planned with that label. -/
theorem changesOf_effect {change : LineSpan × (PlannedLine → PlannedLine)}
    (member : change ∈ Draft.changesOf options (bracketed placements).length
      (record.placement options first label)) :
    change.2 (plannedLine lookup options placements change.1) =
      plannedLine lookup options (placements ++ [record.placement options first label]) change.1 := by
  rw [Draft.changesOf, List.mem_append] at member
  rcases member with around | covered
  · rcases List.mem_map.mp around with ⟨span, near, rfl⟩
    exact require_plannedLine near
  · split at covered
    · rename_i single
      rw [List.mem_singleton] at covered
      rw [covered]
      exact addSingle_plannedLine single
    · rename_i several
      rw [Bool.not_eq_true] at several
      exact bracketChanges_effect several change covered

theorem index_changesOf (placement : Placement)
    {change : LineSpan × (PlannedLine → PlannedLine)}
    (member : change ∈ Draft.changesOf options column placement) (line : PlannedLine) :
    (change.2 line).index = line.index := by
  rw [Draft.changesOf, List.mem_append] at member
  rcases member with around | covered
  · rcases List.mem_map.mp around with ⟨span, _, rfl⟩
    rfl
  · split at covered
    · rw [List.mem_singleton] at covered
      rw [covered]
      rfl
    · rcases List.mem_append.mp covered with front | this
      · rcases List.mem_cons.mp front with rfl | inside
        · rfl
        · rcases List.mem_map.mp inside with ⟨span, _, rfl⟩
          rfl
      · rw [List.mem_singleton] at this
        rw [this]
        rfl

/-!
# The lines of a file
-/

theorem mem_lines_of_mem_changesOf {placement : Placement}
    {change : LineSpan × (PlannedLine → PlannedLine)}
    (member : change ∈ Draft.changesOf options column placement) : change.1 ∈ placement.lines := by
  rw [Draft.changesOf, List.mem_append] at member
  simp only [Placement.lines, List.mem_append, List.mem_cons]
  rcases member with around | covered
  · rcases List.mem_map.mp around with ⟨span, near, rfl⟩
    rcases List.mem_append.mp near with before | after
    · exact Or.inl (Or.inl before)
    · exact Or.inr (Or.inr after)
  · split at covered
    · rw [List.mem_singleton] at covered
      rw [covered]
      exact Or.inl (Or.inr (Or.inl rfl))
    · rcases List.mem_append.mp covered with front | this
      · rcases List.mem_cons.mp front with rfl | inside
        · exact Or.inl (Or.inr (Or.inl rfl))
        · rcases List.mem_map.mp inside with ⟨span, between, rfl⟩
          exact Or.inl (Or.inr (Or.inr between))
      · rw [List.mem_singleton] at this
        rw [this]
        exact Or.inr (Or.inl rfl)

theorem span_of_mem_changesOf {change : LineSpan × (PlannedLine → PlannedLine)}
    (member : change ∈ Draft.changesOf options column (record.placement options first label)) :
    change.1 = record.span change.1.index ∧ change.1.index < record.lineCount := by
  refine ⟨FileRecord.eq_span_of_mem_lines (mem_lines_of_mem_changesOf member), ?_⟩
  have index := List.mem_map_of_mem (f := (·.1.index)) member
  exact (mem_index_changesOf _ |>.mp index).2.2

/-- A line that no label touches is planned blank. -/
theorem plannedLine_eq_blank {i : Nat} (inside : i < record.lineCount)
    (untouched : ∀ label ∈ labels, ¬ record.Touches options label i) :
    plannedLine lookup options (labels.map (record.placement options first)) (record.span i) =
      .blank lookup (record.span i) := by
  have hidden : ∀ label ∈ labels, ¬ record.Shows options label i := by
    intro label listed shows
    exact untouched label listed shows.touches
  have unshown : ((labels.map (record.placement options first)).any fun placement =>
      placement.shows options i) = false := by
    rw [List.any_map, List.any_eq_false]
    intro label listed
    rw [Function.comp_apply, FileRecord.shows_placement]
    exact hidden label listed
  have marks : singleMarks (labels.map (record.placement options first)) i = [] :=
    FileRecord.marksAt_eq_nil hidden
  have entries : bracketEntries (labels.map (record.placement options first)) i = [] :=
    FileRecord.entriesAt_eq_nil untouched inside
  rw [plannedLine, PlannedLine.blank]
  simp only [FileRecord.span, unshown, marks, entries]

theorem touchedLines_concat (label : Label) :
    insertLines (touchedLines (labels.map (record.placement options first)))
        ((Draft.changesOf options column (record.placement options first label)).map (·.1)) =
      touchedLines ((labels ++ [label]).map (record.placement options first)) := by
  have sorted := pairwise_touchedLines (labels.map (record.placement options first))
  apply @eq_of_mem_index_iff record _ _ (pairwise_insertLines _ sorted) (pairwise_touchedLines _)
  · intro span member
    rcases mem_of_mem_insertLines member with changed | touched
    · rcases List.mem_map.mp changed with ⟨change, given, rfl⟩
      exact (span_of_mem_changesOf given).1
    · exact eq_span_of_mem_touchedLines touched
  · intro span
    exact eq_span_of_mem_touchedLines
  · intro i
    rw [mem_index_insertLines, List.map_map, mem_index_touchedLines, mem_index_touchedLines]
    have touches : i ∈ (Draft.changesOf options column (record.placement options first label)).map
        (·.1.index) ↔ record.Touches options label i := mem_index_changesOf i
    simp only [List.mem_append, List.mem_singleton, or_and_right, exists_or, exists_eq_left]
    exact (or_congr_left touches).trans or_comm

/-- The changes of one more label turn the lines planned without it into those planned with it. -/
theorem onLines_changesOf (lookup : Lookup) (options : Options) (record : FileRecord) (first : Int)
    (labels : List Label) (label : Label) :
    Draft.onLines lookup
        (Draft.changesOf options
          (bracketed (labels.map (record.placement options first))).length
          (record.placement options first label))
        ((touchedLines (labels.map (record.placement options first))).map
          (plannedLine lookup options (labels.map (record.placement options first)))) =
      (touchedLines ((labels ++ [label]).map (record.placement options first))).map
        (plannedLine lookup options ((labels ++ [label]).map (record.placement options first))) := by
  have fresh : ∀ change ∈ Draft.changesOf options
      (bracketed (labels.map (record.placement options first))).length
      (record.placement options first label),
      change.1.index ∉ (touchedLines (labels.map (record.placement options first))).map (·.index) →
        plannedLine lookup options (labels.map (record.placement options first)) change.1 =
          .blank lookup change.1 := by
    intro change member absent
    rcases span_of_mem_changesOf member with ⟨span, inside⟩
    rw [mem_index_touchedLines] at absent
    rw [span]
    apply plannedLine_eq_blank inside
    intro other listed touches
    exact absent ⟨other, listed, touches⟩
  rw [Draft.onLines_map (pairwise_touchedLines _) (fun _ => rfl)
    (fun change member => index_changesOf _ member) fresh, touchedLines_concat]
  apply List.map_congr_left
  intro span touched
  rw [List.map_append, List.map_singleton]
  have whole := eq_span_of_mem_touchedLines touched
  by_cases listed : span.index ∈ (Draft.changesOf options
      (bracketed (labels.map (record.placement options first))).length
      (record.placement options first label)).map (·.1.index)
  · rcases List.mem_map.mp listed with ⟨change, member, index⟩
    have same : change.1 = span := by
      rw [(span_of_mem_changesOf member).1, whole, index]
    rw [← same, Draft.foldl_changed_of_mem (List.pairwise_map.mp nodup_index_changesOf) member]
    exact changesOf_effect member
  · rw [Draft.foldl_changed_of_not_mem listed]
    rw [mem_index_changesOf] at listed
    have inside : span.index < record.lineCount := by
      have index := List.mem_map_of_mem (f := (·.index)) touched
      rcases (mem_index_touchedLines span.index).mp index with ⟨other, _, touches⟩
      exact touches.2.2
    exact (plannedLine_concat_of_not_touches listed inside).symm

end Plan
end SourceReport

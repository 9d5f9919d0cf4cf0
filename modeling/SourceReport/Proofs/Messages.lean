import SourceReport.Proofs.Courses
import SourceReport.Proofs.LineMessages

/-!
# Messages of a report

A rich view prints every message of the labels of a valid diagnostic once, and no other message,
whatever labels overlap and whatever lines are left out: the line on which a label ends is always
drawn, and it is drawn once.
-/

namespace SourceReport

/-!
# Grouping
-/

/-- Grouping keeps every item if each item belongs to a group and no item belongs to two. -/
theorem perm_flatMap_filter {κ α : Type} {owns : κ → α → Bool} {keys : List κ} {items : List α}
    (apart : keys.Pairwise fun a b => ∀ item ∈ items, owns a item = true → owns b item = false)
    (covered : ∀ item ∈ items, ∃ key ∈ keys, owns key item = true) :
    (keys.flatMap fun key => items.filter (owns key)).Perm items := by
  induction keys generalizing items with
  | nil =>
      have empty : items = [] := by
        apply List.eq_nil_iff_forall_not_mem.mpr
        intro item member
        rcases covered item member with ⟨key, listed, _⟩
        cases listed
      rw [empty]
      exact List.Perm.nil
  | cons key rest ih =>
      rcases List.pairwise_cons.mp apart with ⟨alone, others⟩
      have left : ∀ item ∈ items.filter fun item => !owns key item,
          item ∈ items ∧ owns key item = false := by
        intro item member
        rcases List.mem_filter.mp member with ⟨listed, outside⟩
        exact ⟨listed, by simpa using outside⟩
      have groups : (rest.flatMap fun other => items.filter (owns other)) =
          rest.flatMap fun other =>
            (items.filter fun item => !owns key item).filter (owns other) := by
        apply List.flatMap_congr
        intro other listed
        rw [List.filter_filter]
        apply List.filter_congr
        intro item member
        cases inside : owns key item with
        | true => rw [alone other listed item member inside]; rfl
        | false => exact (Bool.and_true _).symm
      have separate := others.imp fun {a b} distinct item member =>
        distinct item (left item member).1
      have reached : ∀ item ∈ items.filter fun item => !owns key item,
          ∃ other ∈ rest, owns other item = true := by
        intro item member
        rcases covered item (left item member).1 with ⟨other, listed, inside⟩
        rcases List.mem_cons.mp listed with this | later
        · rw [this, (left item member).2] at inside
          cases inside
        · exact ⟨other, later, inside⟩
      rw [List.flatMap_cons, groups]
      exact ((ih separate reached).append_left _).trans (List.filter_append_perm (owns key) items)

theorem nonempty_flatMap {α : Type} (groups : α → List Label) (keys : List α) :
    (keys.flatMap fun key => nonempty ((groups key).map (·.message))) =
      nonempty ((keys.flatMap groups).map (·.message)) := by
  rw [List.map_flatMap, nonempty, List.filter_flatMap]
  rfl

theorem perm_nonempty {labels others : List Label} (same : labels.Perm others) :
    (nonempty (labels.map (·.message))).Perm (nonempty (others.map (·.message))) :=
  (same.map _).filter _

namespace Plan

variable {base : FileBase} {options : Options} {first : Int} {diagnostic : Diagnostic}

/-!
# The messages of one file
-/

theorem FileOf.perm_messages {file : PlannedFile} {record : FileRecord}
    (h : FileOf base options first diagnostic file record) :
    ((file.snippetRows base options first diagnostic).filterMap Row.message?).Perm
      (nonempty ((diagnostic.labelsIn file.id).map (·.message))) := by
  have sorted := List.pairwise_map.mpr h.pairwise_renderedLines
  have lines := Snippet.pairwise_fillGaps sorted
  -- The labels are grouped by the lines on which they end, and each of these lines is drawn.
  have grouped : ((Snippet.fillGaps (file.renderedLines.map (·.index))).flatMap
      (record.endingAt (diagnostic.labelsIn file.id))).Perm (diagnostic.labelsIn file.id) := by
    apply perm_flatMap_filter
    · apply lines.imp
      intro a b below label _ inside
      have last : record.lineAt label.stop = a := of_decide_eq_true inside
      apply decide_eq_false
      omega
    · intro label given
      have shown := (h.mem_index_renderedLines (record.lineAt label.stop)).mpr
        ⟨label, given, Or.inr (Or.inl rfl)⟩
      exact ⟨record.lineAt label.stop, (Snippet.mem_fillGaps sorted _).mpr (Or.inl shown),
        decide_eq_true rfl⟩
  have gaps : ∀ _ next : Nat,
      [record.gapRow options first (diagnostic.labelsIn file.id) next].filterMap Row.message? =
        [] := fun _ _ => rfl
  rw [h.snippetRows_eq, FileRecord.snippetRows, Snippet.filterMap_weave,
    Snippet.weave_eq_flatMap gaps]
  apply (List.Perm.flatMap_left _ fun i _ =>
    record.perm_filterMap_lineRows options first (diagnostic.labelsIn file.id) i).trans
  rw [nonempty_flatMap]
  exact perm_nonempty grouped

/-!
# The messages of all files
-/

/-- The labels of all files of a plan are the labels of the diagnostic. -/
theorem perm_labels (valid : ∀ label ∈ diagnostic.labels, label.IsValid base) :
    ((plannedFiles (base.numberedFrom first) options
        (diagnostic.labels.map (base.placed options first))).flatMap fun file =>
      diagnostic.labelsIn file.id).Perm diagnostic.labels := by
  apply perm_flatMap_filter
  · apply (pairwise_files _ _).imp_of_mem
    intro a b left right apart label listed inside
    rcases fileOf_of_mem valid left with ⟨record, known⟩
    rcases fileOf_of_mem valid right with ⟨next, other⟩
    rcases valid label listed with ⟨found, held, _⟩
    cases again : b.id.same label.file with
    | false => rfl
    | true =>
        have same := (known.held.same_iff held.isSome_whole?).mp inside
        have equal := (other.held.same_iff held.isSome_whole?).mp again
        have joined := (known.held.same_iff other.held.isSome_whole?).mpr (same.trans equal.symm)
        rw [joined] at apart
        cases apart
  · intro label listed
    exact exists_file valid listed

end Plan

/-- The label message that a step prints. -/
def Step.message? : Step → Option String
  | .trace _ => none
  | .row _ drawn => drawn.message?
  | .fail _ => none

namespace Pencil

/-- A row prints its message in one text, as the last of its texts. -/
theorem exists_content_eq (pencil : Pencil) (padding : Nat) {row : Row} {message : String}
    (h : row.message? = some message) :
    ∃ (front : List Event) (text : String),
      pencil.content padding row = front ++ [.write text, .reset] ∧
        (text = message ∨ text = " " ++ message) := by
  cases row with
  | carets gutter cells trailing =>
      cases trailing with
      | none => cases h
      | some trailing =>
          cases h
          refine ⟨pencil.leftSide padding gutter ++ .write " " :: pencil.caretCells none cells ++
            [.write " ", pencil.setLabel trailing.1], trailing.2, ?_, Or.inl rfl⟩
          rw [List.append_assoc _ [.write " ", pencil.setLabel trailing.1]]
          rfl
  | hanging gutter cells style text =>
      cases h
      refine ⟨pencil.leftSide padding gutter ++ .write " " :: cells.flatMap pencil.pointerCell ++
        [pencil.setLabel style], message, ?_, Or.inl rfl⟩
      rw [List.append_assoc _ [pencil.setLabel style]]
      rfl
  | bracket gutter stop style run text =>
      simp only [Row.message?] at h
      split at h
      · cases h
      · rename_i shown
        cases h
        refine ⟨pencil.leftSide padding gutter ++ (pencil.setLabel style ::
          run.map (fun width => .write (.repeated width (pencil.stroke stop))) ++
          [.write (pencil.bracketCaret style)]), " " ++ message, ?_, Or.inr rfl⟩
        simp only [content, bracketRun, if_neg shown, List.append_assoc, List.cons_append,
          List.nil_append]
  | header locus code text => cases h
  | blank => cases h
  | start locus => cases h
  | source number gutter cells => cases h
  | pointers gutter cells => cases h
  | empty gutter => cases h
  | gap gutter => cases h
  | note isFirst text => cases h

end Pencil

namespace View

theorem messages_exact (base : FileBase) (first : Int) (options : Options)
    (diagnostic : Diagnostic) (rich : options.displayStyle = .rich)
    (valid : ∀ label ∈ diagnostic.labels, label.IsValid base) :
    (∀ failure, Step.fail failure ∉ steps (base.numberedFrom first) options diagnostic) ∧
      ((steps (base.numberedFrom first) options diagnostic).filterMap Step.message?).Perm
        (nonempty (diagnostic.labels.map (·.message))) ∧
      (∀ (pencil : Pencil) padding (row : Row) message, row.message? = some message →
        ∃ (front : List Event) (text : String),
          pencil.content padding row = front ++ [.write text, .reset] ∧
            (text = message ∨ text = " " ++ message)) ∧
      Overflow.DrawsSteps (base.numberedFrom first) options diagnostic := by
  have frame : ∀ padding (row : Row), row.isFrame = true →
      Step.message? (.row padding row) = none := by
    intro padding row around
    cases row <;> first | rfl | cases around
  have unfailing : ∀ failure,
      Step.fail failure ∉ steps (base.numberedFrom first) options diagnostic :=
    fail_not_mem_steps valid
  refine ⟨unfailing, ?_, ?_, Overflow.drawsSteps unfailing⟩
  · rw [steps, rich]
    rcases Rich.filterMap_steps valid frame (fun _ => rfl) with ⟨plan, planned, printed⟩
    rw [Plan.ofDiagnostic_eq valid] at planned
    cases planned
    rw [printed]
    have files := List.Perm.flatMap_left (Plan.plannedFiles (base.numberedFrom first) options
      (diagnostic.labels.map (base.placed options first))) fun file member => by
        rcases Plan.fileOf_of_mem valid member with ⟨record, known⟩
        exact known.perm_messages
    apply files.trans
    rw [nonempty_flatMap]
    exact perm_nonempty (Plan.perm_labels valid)
  · intro pencil padding row message
    exact pencil.exists_content_eq padding

theorem messages_exact_letters :
    (∀ label ∈ Letters.diagnostic.labels, label.IsValid Letters.base) ∧
      ((steps Letters.base.lookup {} Letters.diagnostic).filterMap Step.message?).Perm
        ["all letters", "one letter"] :=
  ⟨Letters.valid, (messages_exact Letters.base 1 {} Letters.diagnostic rfl Letters.valid).2.1⟩

end View
end SourceReport

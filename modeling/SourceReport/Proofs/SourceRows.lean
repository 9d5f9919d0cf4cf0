import Mathlib.Data.List.Basic
import SourceReport.Proofs.Elision

/-!
# Source rows

The source rows of a rich view are those of the lines that its snippets draw, file by file and in
ascending order.
-/

namespace SourceReport
namespace Row

/-- A source row. -/
def source? : Row → Option Row
  | .source number gutter cells => some (.source number gutter cells)
  | .header _ _ _ => none
  | .blank => none
  | .start _ => none
  | .carets _ _ _ => none
  | .pointers _ _ => none
  | .hanging _ _ _ _ => none
  | .bracket _ _ _ _ _ => none
  | .empty _ => none
  | .gap _ => none
  | .note _ _ => none

theorem bind_source?_line? (row : Row) : row.line?.bind source? = row.source? := by
  cases row <;> rfl

theorem source?_eq_none_of_isFrame {row : Row} (around : row.isFrame = true) :
    row.source? = none := by
  cases row <;> first | rfl | cases around

end Row

/-- The source row that a step draws. -/
def Step.source? : Step → Option Row
  | .trace _ => none
  | .row _ drawn => drawn.source?
  | .fail _ => none

namespace FileRecord

variable (record : FileRecord) (options : Options) (first : Int) (labels : List Label)

def sourceRow (i : Nat) : Row :=
  .source (first + i) (record.sourceGutter options first labels i)
    (record.sourceCells options first labels i)

theorem filterMap_source?_lineRows (i : Nat) :
    (record.lineRows options first labels i).filterMap Row.source? =
      [record.sourceRow options first labels i] := by
  have lines := congrArg (List.filterMap Row.source?)
    (record.filterMap_line?_lineRows options first labels i)
  rw [List.filterMap_filterMap] at lines
  simp only [Row.bind_source?_line?] at lines
  exact lines

theorem filterMap_source?_snippetRows (shown : List Nat) :
    (record.snippetRows options first labels shown).filterMap Row.source? =
      (Snippet.fillGaps shown).map (record.sourceRow options first labels) := by
  have gaps : ∀ _ next : Nat,
      [record.gapRow options first labels next].filterMap Row.source? = [] := fun _ _ => rfl
  rw [snippetRows, Snippet.filterMap_weave, Snippet.weave_eq_flatMap gaps]
  simp only [filterMap_source?_lineRows]
  exact List.map_eq_flatMap.symm

end FileRecord

/-- The source row of a line of one file of a plan. -/
def PlannedFile.sourceRow (base : FileBase) (options : Options) (first : Int)
    (diagnostic : Diagnostic) (file : PlannedFile) (i : Nat) : Row :=
  (base.recordAt file.id).sourceRow options first (diagnostic.labelsIn file.id) i

variable {base : FileBase} {options : Options} {first : Int} {diagnostic : Diagnostic}

theorem Plan.FileOf.sourceRow_eq {file : PlannedFile} {record : FileRecord}
    (h : Plan.FileOf base options first diagnostic file record) (i : Nat) :
    file.sourceRow base options first diagnostic i =
      record.sourceRow options first (diagnostic.labelsIn file.id) i := by
  rw [PlannedFile.sourceRow, h.held.recordAt_eq]

theorem View.filterMap_source?_steps (first : Int) (rich : options.displayStyle = .rich)
    (valid : ∀ label ∈ diagnostic.labels, label.IsValid base) :
    ∃ plan, Plan.ofDiagnostic (base.numberedFrom first) options diagnostic = .ok plan ∧
      (steps (base.numberedFrom first) options diagnostic).filterMap Step.source? =
        plan.files.flatMap fun file =>
          file.drawn.map (file.sourceRow base options first diagnostic) := by
  have frame : ∀ padding (row : Row), row.isFrame = true →
      Step.source? (.row padding row) = none := by
    intro padding row around
    exact row.source?_eq_none_of_isFrame around
  rw [steps, rich]
  rcases Rich.filterMap_steps valid frame (fun _ => rfl) with ⟨plan, planned, drawn⟩
  refine ⟨plan, planned, drawn.trans ?_⟩
  apply List.flatMap_congr
  intro file _
  exact FileRecord.filterMap_source?_snippetRows _ _ _ _ _

end SourceReport

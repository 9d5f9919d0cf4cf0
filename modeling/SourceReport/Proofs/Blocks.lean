import Mathlib.Data.List.Forall2
import SourceReport.Proofs.Snippets

/-!
# Blocks of rows

The rows of a rich view are a header, one block for each planned file, the notes and a blank row. A
block names its file and then holds the snippet, which may be set off from what follows.
-/

namespace SourceReport

def Step.row? : Step → Option Row
  | .trace _ => none
  | .row _ drawn => some drawn
  | .fail _ => none

namespace PlannedFile

/-- The row that sets a snippet off. -/
def emptyRow (file : PlannedFile) : Row :=
  .empty (Gutter.ofLine [] file.numBrackets)

/-- The rows of a file before its snippet. -/
def openingRows (file : PlannedFile) : List Row :=
  [.start file.locus, file.emptyRow]

/-- The rows of a file after its snippet. -/
def closingRows (file : PlannedFile) (isClosed : Bool) : List Row :=
  if isClosed then [file.emptyRow] else []

def block (base : FileBase) (options : Options) (first : Int) (diagnostic : Diagnostic)
    (isClosed : Bool) (file : PlannedFile) : List Row :=
  file.openingRows ++ file.snippetRows base options first diagnostic ++ file.closingRows isClosed

def blocks (base : FileBase) (options : Options) (first : Int) (diagnostic : Diagnostic) :
    List PlannedFile → List (List Row)
  | [] => []
  | file :: rest =>
      file.block base options first diagnostic (!rest.isEmpty || !diagnostic.notes.isEmpty) ::
        blocks base options first diagnostic rest

end PlannedFile

namespace View
namespace Rich

variable {base : FileBase} {options : Options} {first : Int} {diagnostic : Diagnostic}

theorem filterMap_row?_map_row (padding : Nat) (rows : List Row) :
    (rows.map (Step.row padding)).filterMap Step.row? = rows := by
  rw [List.filterMap_map]
  exact List.filterMap_some

theorem filterMap_row?_fileSteps {file : PlannedFile} {record : FileRecord}
    (h : Plan.FileOf base options first diagnostic file record) (padding : Nat)
    (isClosed : Bool) :
    (fileSteps (base.numberedFrom first) options padding file isClosed).filterMap Step.row? =
      file.block base options first diagnostic isClosed := by
  have rows := filterMap_row?_map_row padding (file.snippetRows base options first diagnostic)
  rw [h.fileSteps_eq, ← h.snippetRows_eq]
  simp only [List.filterMap_append, List.filterMap_cons, Step.row?, rows]
  cases isClosed <;> rfl

theorem filterMap_row?_filesSteps {files : List PlannedFile}
    (planned : ∀ file ∈ files, ∃ record, Plan.FileOf base options first diagnostic file record)
    (padding : Nat) :
    (filesSteps (base.numberedFrom first) options padding (!diagnostic.notes.isEmpty)
        files).filterMap Step.row? =
      (PlannedFile.blocks base options first diagnostic files).flatten := by
  induction files with
  | nil => rfl
  | cons file rest ih =>
      rw [List.forall_mem_cons] at planned
      rcases planned.1 with ⟨record, h⟩
      rw [filesSteps, List.filterMap_append, filterMap_row?_fileSteps h, ih planned.2,
        PlannedFile.blocks, List.flatten_cons]

theorem filterMap_row?_noteSteps (padding : Nat) (notes : List String) :
    (noteSteps padding notes).filterMap Step.row? = notes.flatMap noteRows := by
  rw [noteSteps, List.filterMap_flatMap]
  simp only [filterMap_row?_map_row]

/-- All rows that the rich view draws. -/
theorem filterMap_row?_steps (valid : ∀ label ∈ diagnostic.labels, label.IsValid base) :
    ∃ plan, Plan.ofDiagnostic (base.numberedFrom first) options diagnostic = .ok plan ∧
      (steps (base.numberedFrom first) options diagnostic).filterMap Step.row? =
        .header none diagnostic.code diagnostic.message ::
          ((PlannedFile.blocks base options first diagnostic plan.files).flatten ++
            diagnostic.notes.flatMap noteRows ++ [.blank]) := by
  refine ⟨_, Plan.ofDiagnostic_eq valid, ?_⟩
  have files := fun padding => @filterMap_row?_filesSteps base options first diagnostic
    (Plan.plannedFiles (base.numberedFrom first) options
      (diagnostic.labels.map (base.placed options first)))
    (fun file member => Plan.fileOf_of_mem valid member) padding
  rw [steps, Plan.ofDiagnostic_eq valid]
  simp only [planSteps, List.cons_append, List.filterMap_append, List.filterMap_cons, Step.row?,
    files, filterMap_row?_noteSteps, List.filterMap_nil]

/-- What holds of each block that a file may have holds of the blocks of a view. -/
theorem forall₂_blocks {P : PlannedFile → List Row → Prop} {files : List PlannedFile}
    (h : ∀ file ∈ files, ∀ isClosed, P file (file.block base options first diagnostic isClosed)) :
    List.Forall₂ P files (PlannedFile.blocks base options first diagnostic files) := by
  induction files with
  | nil => exact List.Forall₂.nil
  | cons file rest ih =>
      rw [List.forall_mem_cons] at h
      exact List.Forall₂.cons (h.1 _) (ih h.2)

/-- What holds of the block of every file that may be planned holds of the rows of the view. -/
theorem exists_blocks (valid : ∀ label ∈ diagnostic.labels, label.IsValid base)
    {P : PlannedFile → FileRecord → List Row → Prop}
    (h : ∀ file record isClosed, Plan.FileOf base options first diagnostic file record →
      P file record (file.block base options first diagnostic isClosed)) :
    ∃ plan, Plan.ofDiagnostic (base.numberedFrom first) options diagnostic = .ok plan ∧
      ∃ blocks : List (List Row),
        (steps (base.numberedFrom first) options diagnostic).filterMap Step.row? =
          .header none diagnostic.code diagnostic.message ::
            (blocks.flatten ++ diagnostic.notes.flatMap noteRows ++ [.blank]) ∧
        List.Forall₂ (fun file rows => ∃ record, base.Holds file.id record ∧ P file record rows)
          plan.files blocks := by
  rcases filterMap_row?_steps valid with ⟨plan, planned, drawn⟩
  refine ⟨plan, planned, _, drawn, ?_⟩
  apply forall₂_blocks
  intro file member isClosed
  rcases Plan.exists_fileOf valid planned member with ⟨record, known⟩
  exact ⟨record, known.held, h file record isClosed known⟩

end Rich
end View
end SourceReport

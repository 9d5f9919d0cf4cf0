import Mathlib.Data.List.Forall2
import SourceReport.Proofs.RedrawnViews

/-!
# Elided lines

The lines of a file that are not drawn do not matter. They may be replaced by any lines of the same
lengths: the labels stay valid, and the plan, the steps and the drawing of the rich view are the
same.
-/

namespace SourceReport
namespace FileRecord

/-!
# Files of the same outline
-/

/-- The files have the same name, the same line starts and the same length. What their lines hold may
differ. -/
structure SameOutline (record other : FileRecord) : Prop where
  name_eq : other.name = record.name
  lineStarts_eq : other.lineStarts = record.lineStarts
  length_eq : other.encoded.length = record.encoded.length

instance (record other : FileRecord) : Decidable (record.SameOutline other) :=
  decidable_of_iff
    (other.name = record.name ∧ other.lineStarts = record.lineStarts ∧
      other.encoded.length = record.encoded.length)
    ⟨fun ⟨name, starts, length⟩ => ⟨name, starts, length⟩,
      fun h => ⟨h.name_eq, h.lineStarts_eq, h.length_eq⟩⟩

namespace SameOutline

variable {record other : FileRecord}

theorem lineCount_eq (h : record.SameOutline other) : other.lineCount = record.lineCount := by
  rw [← length_lineStarts, h.lineStarts_eq, length_lineStarts]

theorem startOf_eq (h : record.SameOutline other) {i : Nat} (inside : i ≤ record.lineCount) :
    other.startOf i = record.startOf i := by
  have here := record.lineStart_of_le inside
  have there := other.lineStart_of_le (h.lineCount_eq ▸ inside)
  have same : other.lineStart i = record.lineStart i := by
    rw [lineStart, lineStart, h.lineStarts_eq, h.length_eq]
  rw [same, here] at there
  exact (Int.ofNat_inj.mp (Except.ok.inj there)).symm

theorem aligned (h : record.SameOutline other) : record.Aligned other Shift.zero where
  name_eq := h.name_eq
  lineCount_eq := h.lineCount_eq
  startOf_eq _ inside := h.startOf_eq inside

end SameOutline
end FileRecord

namespace FileBase

/-- The bases have as many files, and those at the same place have the same outline. -/
def SameOutline (base other : FileBase) : Prop :=
  List.Forall₂ FileRecord.SameOutline base.records other.records

variable {base other : FileBase} {id : Scalar} {record : FileRecord}

theorem SameOutline.exists_holds (h : base.SameOutline other) (held : base.Holds id record) :
    ∃ next, other.Holds id next ∧ record.SameOutline next := by
  rcases held with ⟨place, number, found⟩
  rcases List.getElem?_eq_some_iff.mp found with ⟨inside, rfl⟩
  have within : place < other.records.length := by
    rw [← h.length_eq]
    exact inside
  exact ⟨other.records[place], ⟨place, number, List.getElem?_eq_getElem within⟩,
    h.get inside within⟩

end FileBase

/-!
# Lines that are drawn
-/

/-- The lines that the plan in the first base draws have the same texts in the second one. -/
def Diagnostic.DrawnAlike (base other : FileBase) (first : Int) (options : Options)
    (diagnostic : Diagnostic) : Prop :=
  ∀ plan, Plan.ofDiagnostic (base.numberedFrom first) options diagnostic = .ok plan →
    ∀ file ∈ plan.files, ∀ i ∈ file.drawn,
      (other.recordAt file.id).lineText i = (base.recordAt file.id).lineText i

instance (base other : FileBase) (first : Int) (options : Options) (diagnostic : Diagnostic) :
    Decidable (diagnostic.DrawnAlike base other first options) :=
  match planned : Plan.ofDiagnostic (base.numberedFrom first) options diagnostic with
  | .ok plan =>
      decidable_of_iff
        (∀ file ∈ plan.files, ∀ i ∈ file.drawn,
          (other.recordAt file.id).lineText i = (base.recordAt file.id).lineText i)
        ⟨fun alike _ again => Except.ok.inj (planned.symm.trans again) ▸ alike,
          fun alike => alike plan planned⟩
  | .error _ => isTrue fun _ again => nomatch planned.symm.trans again

namespace Diagnostic

variable {base other : FileBase} {first : Int} {options : Options} {diagnostic : Diagnostic}

theorem DrawnAlike.redrawn (alike : diagnostic.DrawnAlike base other first options)
    (valid : ∀ label ∈ diagnostic.labels, label.IsValid base) (outlines : base.SameOutline other) :
    diagnostic.Redrawn base other Shift.zero options := by
  intro label listed
  rcases valid label listed with ⟨record, held, fits⟩
  rcases outlines.exists_holds held with ⟨next, again, outline⟩
  refine ⟨record, next, held, again, fits, outline.aligned, ?_, fun _ _ => Or.inl rfl⟩
  intro i drawn
  -- The file of the plan may be under another name of the label's file.
  obtain ⟨plan, planned⟩ : ∃ plan,
      Plan.ofDiagnostic (base.numberedFrom first) options diagnostic = .ok plan :=
    ⟨_, Plan.ofDiagnostic_eq valid⟩
  rcases Plan.exists_file_of_plan valid planned listed with ⟨file, member, same⟩
  rcases Plan.exists_fileOf valid planned member with ⟨found, known⟩
  have numbers := (known.held.same_iff held.isSome_whole?).mp same
  have labels := Plan.labelsIn_congr valid known.held numbers
  have texts := alike _ planned file member i
  rw [known.held.recordAt_eq, (again.of_whole? numbers.symm).recordAt_eq,
    known.held.unique (held.of_whole? numbers.symm)] at texts
  apply texts
  rw [known.draws_iff, known.held.unique (held.of_whole? numbers.symm), labels]
  exact drawn

end Diagnostic

/-!
# Nothing is shifted
-/

namespace Shift

theorem zero_label (label : Label) : zero.label label = label := rfl

theorem zero_diagnostic (diagnostic : Diagnostic) : zero.diagnostic diagnostic = diagnostic := by
  have labels : diagnostic.labels.map zero.label = diagnostic.labels := by
    rw [show zero.label = id from funext zero_label, List.map_id]
  rw [Shift.diagnostic, labels]

theorem zero_plannedLine (line : PlannedLine) : zero.plannedLine line = line := by
  simp only [plannedLine, range, zero, Int.natCast_zero, Int.add_zero, Nat.add_zero]

theorem zero_plannedFile (file : PlannedFile) : zero.plannedFile file = file := by
  have lines : file.lines.map zero.plannedLine = file.lines := by
    rw [show zero.plannedLine = id from funext zero_plannedLine, List.map_id]
  rw [plannedFile, lines]
  rfl

theorem zero_plan (plan : Plan) : zero.plan plan = plan := by
  have files : plan.files.map zero.plannedFile = plan.files := by
    rw [show zero.plannedFile = id from funext zero_plannedFile, List.map_id]
  rw [Shift.plan, files]

end Shift

/-!
# Other letters

The two lines of the letters that are not drawn hold something else.
-/

namespace Letters

def elided : FileBase :=
  .ofSources [("letters", "a\n\tb\nc\nd\ne\nf\n\t\n~\ni\nj\n")]

theorem sameOutline : base.SameOutline elided :=
  .cons (by decide +kernel) .nil

theorem drawnAlike : diagnostic.DrawnAlike base elided 1 {} := by
  decide +kernel

end Letters

namespace View

/-!
# Reports
-/

/-- What the lines hold that are not drawn does not matter. -/
theorem elided_lines_irrelevant (base other : FileBase) (first : Int) (options : Options)
    (diagnostic : Diagnostic) (rich : options.displayStyle = .rich)
    (valid : ∀ label ∈ diagnostic.labels, label.IsValid base) (outlines : base.SameOutline other)
    (alike : diagnostic.DrawnAlike base other first options) :
    (∀ label ∈ diagnostic.labels, label.IsValid other) ∧
      Plan.ofDiagnostic (other.numberedFrom first) options diagnostic =
        Plan.ofDiagnostic (base.numberedFrom first) options diagnostic ∧
      steps (other.numberedFrom first) options diagnostic =
        steps (base.numberedFrom first) options diagnostic ∧
      ∀ machine theme report,
        Overflow.add (other.numberedFrom first) options theme report diagnostic machine =
          Overflow.add (base.numberedFrom first) options theme report diagnostic machine := by
  have redrawn := alike.redrawn valid outlines
  have numbers : first + Shift.zero.lines = first := Int.add_zero first
  have labels := redrawn.valid_labels
  have plans := redrawn.ofDiagnostic_eq numbers
  have rows := redrawn.steps_eq numbers
  have drawings := redrawn.add_eq rich numbers
  rw [Shift.zero_diagnostic] at labels plans rows drawings
  rw [show Shift.zero.plan = id from funext Shift.zero_plan, Except.map_id] at plans
  refine ⟨labels, plans, ?_, drawings⟩
  rw [steps, steps, rich]
  exact rows

/-- The letters `g` and `h` are not drawn. -/
theorem elided_lines_irrelevant_letters :
    (∀ label ∈ Letters.diagnostic.labels, label.IsValid Letters.base) ∧
      Letters.base.SameOutline Letters.elided ∧
      Letters.diagnostic.DrawnAlike Letters.base Letters.elided 1 {} ∧
      steps Letters.elided.lookup {} Letters.diagnostic =
        steps Letters.base.lookup {} Letters.diagnostic :=
  ⟨Letters.valid, Letters.sameOutline, Letters.drawnAlike,
    (elided_lines_irrelevant Letters.base Letters.elided 1 {} Letters.diagnostic rfl Letters.valid
      Letters.sameOutline Letters.drawnAlike).2.2.1⟩

end View
end SourceReport

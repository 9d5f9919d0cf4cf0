import Mathlib.Data.List.Forall2
import SourceReport.Proofs.FileOrder
import SourceReport.Proofs.Reports

/-!
# Labels in another order

A report does not depend on the order of the labels, apart from the orders that are drawn: that in
which files are named first, that of the brackets of a file, and that of the labels which share the
range that they are drawn under.
-/

namespace SourceReport

/-- The same diagnostic with its labels in another order that is drawn alike. -/
structure Diagnostic.Reordered (base : FileBase) (diagnostic reordered : Diagnostic) : Prop where
  rest : reordered = { diagnostic with labels := reordered.labels }
  perm : reordered.labels.Perm diagnostic.labels
  files : reordered.filesNamed = diagnostic.filesNamed
  order : ∀ label ∈ diagnostic.labels, (base.recordAt label.file).KeepsOrder
    (diagnostic.labelsIn label.file) (reordered.labelsIn label.file)

instance (base : FileBase) (diagnostic reordered : Diagnostic) :
    Decidable (diagnostic.Reordered base reordered) :=
  decidable_of_iff
    (reordered = { diagnostic with labels := reordered.labels } ∧
      reordered.labels.Perm diagnostic.labels ∧ reordered.filesNamed = diagnostic.filesNamed ∧
      ∀ label ∈ diagnostic.labels, (base.recordAt label.file).KeepsOrder
        (diagnostic.labelsIn label.file) (reordered.labelsIn label.file))
    ⟨fun ⟨rest, perm, files, order⟩ => ⟨rest, perm, files, order⟩,
      fun h => ⟨h.rest, h.perm, h.files, h.order⟩⟩

/-- The files are planned alike, but may have been named first by different ids of the file. -/
def PlannedFile.Alike (file other : PlannedFile) : Prop :=
  file.id.whole? = other.id.whole? ∧ other = { file with id := other.id }

namespace Diagnostic
namespace Reordered

variable {base : FileBase} {diagnostic reordered : Diagnostic}

theorem valid (h : diagnostic.Reordered base reordered)
    (valid : ∀ label ∈ diagnostic.labels, label.IsValid base) :
    ∀ label ∈ reordered.labels, label.IsValid base := by
  intro label listed
  exact valid label (h.perm.mem_iff.mp listed)

theorem perm_labelsIn (h : diagnostic.Reordered base reordered) (id : Scalar) :
    (reordered.labelsIn id).Perm (diagnostic.labelsIn id) :=
  h.perm.filter _

/-- The order is kept in a file under each of its ids, if it is under those that the labels use. -/
theorem keepsOrder (h : diagnostic.Reordered base reordered)
    (valid : ∀ label ∈ diagnostic.labels, label.IsValid base) {id : Scalar} {record : FileRecord}
    (held : base.Holds id record) {label : Label} (given : label ∈ diagnostic.labelsIn id) :
    record.KeepsOrder (diagnostic.labelsIn id) (reordered.labelsIn id) := by
  rcases List.mem_filter.mp given with ⟨listed, same⟩
  rcases valid label listed with ⟨_, known, _⟩
  have number := (held.same_iff_of_holds known).mp same
  have kept := h.order label listed
  rw [(held.of_whole? number).recordAt_eq] at kept
  rw [Plan.labelsIn_congr valid held number, Plan.labelsIn_congr (h.valid valid) held number]
  exact kept

end Reordered
end Diagnostic

/-!
# Plans
-/

namespace Plan

variable {base : FileBase} {options : Options} {first : Int} {diagnostic reordered : Diagnostic}

theorem gutterWidth_eq_of_perm (lookup : Lookup) {placements others : List Placement}
    (perm : others.Perm placements) : gutterWidth lookup others = gutterWidth lookup placements :=
  (perm.flatMap_right _).foldl_eq 0

theorem FileOf.alike {file other : PlannedFile} {record next : FileRecord}
    (h : diagnostic.Reordered base reordered)
    (valid : ∀ label ∈ diagnostic.labels, label.IsValid base)
    (numbers : file.id.whole? = other.id.whole?)
    (known : FileOf base options first diagnostic file record)
    (again : FileOf base options first reordered other next) : file.Alike other := by
  have records : next = record := again.held.unique (known.held.of_whole? numbers)
  have names := labelsIn_congr (h.valid valid) known.held numbers
  rcases known.planned with ⟨head, listed, planned⟩
  rcases again.planned with ⟨mentioned, member, replanned⟩
  rw [records, ← names] at replanned
  rw [← names] at member
  have files := FileRecord.plannedFile_eq_of_perm options first (h.perm_labelsIn file.id)
    (h.keepsOrder valid known.held listed) (base.numberedFrom first) listed member
  rw [← replanned, ← planned] at files
  have id : other.id = mentioned.file := congrArg PlannedFile.id files
  refine ⟨numbers, ?_⟩
  rw [id]
  exact files

/-- The plans of both orders have the same files, apart from the ids that named them first. -/
theorem forall₂_alike (options : Options) (first : Int) (h : diagnostic.Reordered base reordered)
    (valid : ∀ label ∈ diagnostic.labels, label.IsValid base) :
    List.Forall₂ PlannedFile.Alike
      (plannedFiles (base.numberedFrom first) options
        (diagnostic.labels.map (base.placed options first)))
      (plannedFiles (base.numberedFrom first) options
        (reordered.labels.map (base.placed options first))) := by
  have names := (map_whole?_files options first valid).trans h.files.symm
  rw [← map_whole?_files options first (h.valid valid), ← List.forall₂_eq_eq_eq,
    List.forall₂_map_left_iff, List.forall₂_map_right_iff, List.forall₂_iff_zip] at names
  rw [List.forall₂_iff_zip]
  refine ⟨names.1, ?_⟩
  intro file other pair
  rcases List.of_mem_zip pair with ⟨member, listed⟩
  rcases fileOf_of_mem valid member with ⟨record, known⟩
  rcases fileOf_of_mem (h.valid valid) listed with ⟨next, again⟩
  exact known.alike h valid (names.2 pair) again

end Plan

/-!
# Steps
-/

namespace View
namespace Rich

variable {base : FileBase} {options : Options} {first : Int} {padding : Nat} {file : PlannedFile}
  {id : Scalar} {record : FileRecord}

/-- The lines of a file are looked up by its id, and any other id of the file finds the same. -/
theorem hiddenLineSteps_withId (held : base.Holds file.id record) (again : base.Holds id record)
    (bytes : List UInt8) (index : Nat) :
    hiddenLineSteps (base.numberedFrom first) options padding { file with id } bytes index =
      hiddenLineSteps (base.numberedFrom first) options padding file bytes index := by
  rw [hiddenLineSteps, hiddenLineSteps, held.lineRange_eq, again.lineRange_eq]
  rfl

theorem linesSteps_withId (held : base.Holds file.id record) (again : base.Holds id record)
    (bytes : List UInt8) (lines : List PlannedLine) :
    linesSteps (base.numberedFrom first) options padding { file with id } bytes lines =
      linesSteps (base.numberedFrom first) options padding file bytes lines := by
  induction lines with
  | nil => rfl
  | cons line rest ih =>
      cases rest with
      | nil => rfl
      | cons next rest =>
          rw [linesSteps, linesSteps, ih]
          simp only [betweenSteps, hiddenLineSteps_withId held again]
          rfl

theorem fileSteps_withId (held : base.Holds file.id record) (again : base.Holds id record)
    (isClosed : Bool) :
    fileSteps (base.numberedFrom first) options padding { file with id } isClosed =
      fileSteps (base.numberedFrom first) options padding file isClosed := by
  rw [fileSteps, fileSteps, held.encoded_eq, again.encoded_eq]
  simp only [linesSteps_withId held again]
  rfl

theorem filesSteps_eq_of_alike {files others : List PlannedFile}
    (alike : List.Forall₂ PlannedFile.Alike files others)
    (known : ∀ file ∈ files, ∃ record, base.Holds file.id record) (hasNotes : Bool) :
    filesSteps (base.numberedFrom first) options padding hasNotes others =
      filesSteps (base.numberedFrom first) options padding hasNotes files := by
  induction alike with
  | nil => rfl
  | @cons file other rest others same alike ih =>
      rw [List.forall_mem_cons] at known
      rcases known.1 with ⟨record, held⟩
      have last : others.isEmpty = rest.isEmpty := by
        cases alike with
        | nil => rfl
        | cons _ _ => rfl
      rw [filesSteps, filesSteps, ih known.2, last, same.2,
        fileSteps_withId held (held.of_whole? same.1)]

theorem steps_eq_of_reordered {diagnostic reordered : Diagnostic}
    (h : diagnostic.Reordered base reordered)
    (valid : ∀ label ∈ diagnostic.labels, label.IsValid base) :
    steps (base.numberedFrom first) options reordered =
      steps (base.numberedFrom first) options diagnostic := by
  have alike := Plan.forall₂_alike options first h valid
  have placed := h.perm.map (base.placed options first)
  have known : ∀ file ∈ Plan.plannedFiles (base.numberedFrom first) options
      (diagnostic.labels.map (base.placed options first)),
      ∃ record, base.Holds file.id record := by
    intro file member
    rcases Plan.fileOf_of_mem valid member with ⟨record, known⟩
    exact ⟨record, known.held⟩
  rw [steps, steps, Plan.ofDiagnostic_eq valid,
    Plan.ofDiagnostic_eq (h.valid valid)]
  simp only [planSteps]
  rw [Plan.gutterWidth_eq_of_perm _ placed, filesSteps_eq_of_alike alike known, h.perm.length_eq,
    alike.length_eq, h.rest]

end Rich
end View

/-!
# Labels of two files

The letters are named by two ids. Two labels are drawn under the sixth of them, and two more are
brackets.
-/

namespace Digits

def base : FileBase :=
  Letters.base.add "digits" "1\n2\n3\n"

def diagnostic : Diagnostic where
  severity := .error
  code := none
  message := "letters and digits"
  labels :=
    [ Letters.one,
      { Letters.all with file := .bool false },
      ⟨.secondary, .int 1, 2, 3, "one digit", by decide, by decide⟩,
      ⟨.primary, .int 0, 3, 8, "some letters", by decide, by decide⟩,
      ⟨.primary, .int 0, 11, 11, "before a letter", by decide, by decide⟩ ]
  notes := []

def reordered : Diagnostic where
  severity := .error
  code := none
  message := "letters and digits"
  labels :=
    [ { Letters.all with file := .bool false },
      ⟨.primary, .int 0, 3, 8, "some letters", by decide, by decide⟩,
      ⟨.secondary, .int 1, 2, 3, "one digit", by decide, by decide⟩,
      Letters.one,
      ⟨.primary, .int 0, 11, 11, "before a letter", by decide, by decide⟩ ]
  notes := []

theorem valid : ∀ label ∈ diagnostic.labels, label.IsValid base := by
  decide +kernel

theorem isReordered : diagnostic.Reordered base reordered := by
  decide +kernel

end Digits

namespace View

/-!
# Reports
-/

theorem label_order_irrelevant (base : FileBase) (first : Int) (options : Options)
    (diagnostic reordered : Diagnostic) (rich : options.displayStyle = .rich)
    (valid : ∀ label ∈ diagnostic.labels, label.IsValid base)
    (h : diagnostic.Reordered base reordered) :
    (∃ plan other, Plan.ofDiagnostic (base.numberedFrom first) options diagnostic = .ok plan ∧
        Plan.ofDiagnostic (base.numberedFrom first) options reordered = .ok other ∧
        plan.padding = other.padding ∧ List.Forall₂ PlannedFile.Alike plan.files other.files) ∧
      steps (base.numberedFrom first) options reordered =
        steps (base.numberedFrom first) options diagnostic ∧
      ∀ machine theme report,
        Overflow.add (base.numberedFrom first) options theme report reordered machine =
          Overflow.add (base.numberedFrom first) options theme report diagnostic machine := by
  have same : steps (base.numberedFrom first) options reordered =
      steps (base.numberedFrom first) options diagnostic := by
    rw [steps, steps, rich]
    exact Rich.steps_eq_of_reordered h valid
  refine ⟨?_, same, ?_⟩
  · refine ⟨_, _, Plan.ofDiagnostic_eq valid, Plan.ofDiagnostic_eq (h.valid valid), ?_, ?_⟩
    · exact (Plan.gutterWidth_eq_of_perm _ (h.perm.map _)).symm
    · exact Plan.forall₂_alike options first h valid
  · intro machine theme report
    have planned : Overflow.ofPlan? (base.numberedFrom first) options reordered =
        Overflow.ofPlan? (base.numberedFrom first) options diagnostic :=
      Overflow.ofPlan?_congr rich valid (h.valid valid) (by simp only [h.perm.mem_iff])
    have pencils : Report.pencil options theme reordered =
        Report.pencil options theme diagnostic := by
      rw [h.rest]
      rfl
    rw [Overflow.add, Overflow.add, planned, same, pencils]

theorem label_order_irrelevant_digits :
    (∀ label ∈ Digits.diagnostic.labels, label.IsValid Digits.base) ∧
      Digits.diagnostic.Reordered Digits.base Digits.reordered ∧
      steps Digits.base.lookup {} Digits.reordered =
        steps Digits.base.lookup {} Digits.diagnostic :=
  ⟨Digits.valid, Digits.isReordered,
    (label_order_irrelevant Digits.base 1 {} Digits.diagnostic Digits.reordered rfl
      Digits.valid Digits.isReordered).2.1⟩

end View
end SourceReport

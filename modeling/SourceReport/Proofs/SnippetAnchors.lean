import Mathlib.Data.List.Nodup
import SourceReport.Proofs.Anchors
import SourceReport.Proofs.Mentions
import SourceReport.Proofs.Rejection

/-!
# Anchors of snippets

The plan of a diagnostic has one file for each file that labels name, in the order in which they
name them first. Each is anchored at the best of its labels, whichever of them came first. Where one
of them is primary, the short view prints the same place in a header.
-/

namespace SourceReport

namespace Diagnostic

/-- A file is listed once, however often labels name it. -/
theorem nodup_filesNamed (diagnostic : Diagnostic) : diagnostic.filesNamed.Nodup := by
  rw [filesNamed]
  induction diagnostic.labels.map (·.file.whole?) using List.reverseRecOn with
  | nil => exact List.nodup_nil
  | append_singleton front number ih =>
      rw [Plan.eraseDups_concat]
      split
      · exact ih
      · rename_i fresh
        rw [List.elem_eq_mem, decide_eq_true_eq, ← List.mem_eraseDups] at fresh
        exact ih.append (List.nodup_singleton number) (List.disjoint_singleton.mpr fresh)

/-!
# The best label in a file
-/

variable {diagnostic : Diagnostic} {id : Scalar} {label : Label}

/-- No label in the file is a better anchor than this one. -/
def IsBestIn (diagnostic : Diagnostic) (id : Scalar) (label : Label) : Prop :=
  label ∈ diagnostic.labelsIn id ∧ ∀ other ∈ diagnostic.labelsIn id, label.Leads other

/-- No primary label in the file starts before this one, which is primary itself. -/
def IsEarliestPrimaryIn (diagnostic : Diagnostic) (id : Scalar) (label : Label) : Prop :=
  label ∈ diagnostic.labelsIn id ∧ label.style = .primary ∧
    ∀ other ∈ diagnostic.labelsIn id, other.style = .primary → label.start ≤ other.start

/-- All best labels in a file have the same style and start. -/
theorem IsBestIn.unique {other : Label} (best : diagnostic.IsBestIn id label)
    (again : diagnostic.IsBestIn id other) :
    label.style = other.style ∧ label.start = other.start :=
  (best.2 other again.1).antisymm (again.2 label best.1)

/-- The best label is primary as soon as any label in the file is. -/
theorem IsBestIn.isPrimary_iff (best : diagnostic.IsBestIn id label) :
    label.style = .primary ↔ ∃ other ∈ diagnostic.labelsIn id, other.style = .primary := by
  constructor
  · intro primary
    exact ⟨label, best.1, primary⟩
  · intro exists_primary
    rcases exists_primary with ⟨other, listed, primary⟩
    rcases best.2 other listed with ⟨first, _⟩ | ⟨style, _⟩
    · exact first
    · exact style.trans primary

theorem isEarliestPrimaryIn_iff :
    diagnostic.IsEarliestPrimaryIn id label ↔
      diagnostic.IsBestIn id label ∧ label.style = .primary := by
  constructor
  · intro earliest
    rcases earliest with ⟨listed, primary, before⟩
    refine ⟨⟨listed, ?_⟩, primary⟩
    intro other member
    cases style : other.style with
    | primary => exact Or.inr ⟨primary.trans style.symm, before other member style⟩
    | secondary => exact Or.inl ⟨primary, style⟩
  · intro best
    rcases best with ⟨⟨listed, leads⟩, primary⟩
    refine ⟨listed, primary, ?_⟩
    intro other member style
    rcases leads other member with ⟨_, secondary⟩ | ⟨_, before⟩
    · rw [style] at secondary
      cases secondary
    · exact before

theorem mem_of_mem_labelsIn (listed : label ∈ diagnostic.labelsIn id) :
    label ∈ diagnostic.labels :=
  (List.mem_filter.mp listed).1

end Diagnostic

namespace View
namespace Short

/-!
# Headers of the short view
-/

variable {base : FileBase} {first : Int} {options : Options} {diagnostic : Diagnostic}

/-- The short view of a valid diagnostic has its headers and nothing else. -/
theorem steps_eq_headerSteps (valid : ∀ label ∈ diagnostic.labels, label.IsValid base) :
    View.steps (base.numberedFrom first) { options with displayStyle := .short } diagnostic =
      headerSteps (base.numberedFrom first) diagnostic := by
  have unrejected : (diagnostic.labels.findSome? fun label => label.rejection? base) = none := by
    rw [List.findSome?_eq_none_iff]
    intro label listed
    exact Label.rejection?_eq_none_iff.mpr (valid label listed)
  rw [View.steps]
  simp only [steps, checkLabels_eq, unrejected]
  exact List.append_nil _

/-- The header of a primary label shows where the label starts. -/
theorem getElem?_headerSteps {place : Nat} {label : Label} {locus : Locus}
    (listed : diagnostic.primaryLabels[place]? = some label)
    (located : (base.numberedFrom first).locus label.file label.start = .ok locus) :
    (headerSteps (base.numberedFrom first) diagnostic)[place]? =
      some (.row 0 (.header (some locus) diagnostic.code diagnostic.message)) := by
  have some_primary : diagnostic.primaryLabels ≠ [] :=
    List.ne_nil_of_mem (List.mem_of_getElem? listed)
  rw [headerSteps, if_neg (by rwa [List.isEmpty_iff]), List.getElem?_map, listed]
  show some (headerStep (base.numberedFrom first) diagnostic label) = _
  rw [headerStep, located]

end Short
end View

/-!
# Anchors of planned files
-/

/-- The place and the style that a planned file is anchored at. -/
structure PlannedFile.IsAnchored (lookup : Lookup) (options : Options) (diagnostic : Diagnostic)
    (file : PlannedFile) : Prop where
  exists_best : ∃ label, diagnostic.IsBestIn file.id label
  /-- The anchor is the start of the best label, and the style of the file is that of the label. -/
  best : ∀ label, diagnostic.IsBestIn file.id label →
    file.style = label.style ∧ file.start = label.start ∧
      lookup.locus label.file label.start = .ok file.locus
  exists_header : (∃ label ∈ diagnostic.labelsIn file.id, label.style = .primary) →
    ∃ (place : Nat) (label : Label), diagnostic.primaryLabels[place]? = some label ∧
      diagnostic.IsEarliestPrimaryIn file.id label
  /-- The short view prints the anchor in the header of the earliest primary label. -/
  header : ∀ (place : Nat) (label : Label), diagnostic.primaryLabels[place]? = some label →
    diagnostic.IsEarliestPrimaryIn file.id label →
      (View.steps lookup { options with displayStyle := .short } diagnostic)[place]? =
        some (.row 0 (.header (some file.locus) diagnostic.code diagnostic.message))

namespace Plan

variable {base : FileBase} {first : Int} {options : Options} {diagnostic : Diagnostic}

/-- A file is planned with the style and at the start of one of its best labels. -/
theorem FileOf.exists_anchor {file : PlannedFile} {record : FileRecord}
    (h : FileOf base options first diagnostic file record) :
    ∃ label, diagnostic.IsBestIn file.id label ∧ file.style = label.style ∧
      file.start = label.start ∧
      file.locus = ⟨record.name, record.locationAt first label.start⟩ := by
  rcases h.planned with ⟨head, listed, planned⟩
  have member : record.placement options first head ∈
      (diagnostic.labelsIn file.id).map (record.placement options first) :=
    List.mem_map_of_mem listed
  have leads := Placement.best_leads (record.placement options first head)
    ((diagnostic.labelsIn file.id).map (record.placement options first))
  rcases List.mem_map.mp (Placement.best_mem_of_mem member) with ⟨label, found, anchor⟩
  rw [← anchor] at leads
  have style : file.style = (Placement.best _ _).label.style := congrArg PlannedFile.style planned
  have start : file.start = (Placement.best _ _).label.start := congrArg PlannedFile.start planned
  have locus : file.locus = ⟨record.name, (Placement.best _ _).location⟩ :=
    congrArg PlannedFile.locus planned
  rw [← anchor] at style start locus
  refine ⟨label, ⟨found, ?_⟩, style, start, locus⟩
  intro other given
  exact leads _ (List.mem_cons_of_mem _ (List.mem_map_of_mem given))

/-- The labels in a file have their starts in its record. -/
theorem FileOf.locus_eq {file : PlannedFile} {record : FileRecord}
    (valid : ∀ label ∈ diagnostic.labels, label.IsValid base)
    (h : FileOf base options first diagnostic file record) {label : Label}
    (listed : label ∈ diagnostic.labelsIn file.id) :
    (base.numberedFrom first).locus label.file label.start =
      .ok ⟨record.name, record.locationAt first label.start⟩ := by
  rcases List.mem_filter.mp listed with ⟨given, same⟩
  rcases valid label given with ⟨_, known, _⟩
  exact (h.held.of_same known.isSome_whole? same).locus_eq label.start

theorem FileOf.isAnchored {file : PlannedFile} {record : FileRecord}
    (valid : ∀ label ∈ diagnostic.labels, label.IsValid base)
    (h : FileOf base options first diagnostic file record) :
    file.IsAnchored (base.numberedFrom first) options diagnostic := by
  rcases h.exists_anchor with ⟨anchor, chosen, style, start, locus⟩
  have best : ∀ label, diagnostic.IsBestIn file.id label →
      file.style = label.style ∧ file.start = label.start ∧
        (base.numberedFrom first).locus label.file label.start = .ok file.locus := by
    intro label other
    have same := chosen.unique other
    refine ⟨style.trans same.1, start.trans same.2, ?_⟩
    rw [h.locus_eq valid other.1, locus, same.2]
  refine ⟨⟨anchor, chosen⟩, best, ?_, ?_⟩
  · intro exists_primary
    have primary := chosen.isPrimary_iff.mpr exists_primary
    have listed : anchor ∈ diagnostic.primaryLabels :=
      List.mem_filter.mpr ⟨Diagnostic.mem_of_mem_labelsIn chosen.1, decide_eq_true primary⟩
    rcases List.mem_iff_getElem?.mp listed with ⟨place, found⟩
    exact ⟨place, anchor, found, Diagnostic.isEarliestPrimaryIn_iff.mpr ⟨chosen, primary⟩⟩
  · intro place label listed earliest
    rw [View.Short.steps_eq_headerSteps valid]
    exact View.Short.getElem?_headerSteps listed
      (best label (Diagnostic.isEarliestPrimaryIn_iff.mp earliest).1).2.2

end Plan

/-!
# Two pages

The right page is named before the left one and by two names. Its primary labels come last, the
earlier one after the later one.
-/

namespace Pages

def base : FileBase :=
  .ofSources [("left", "ab cd\nef gh\n"), ("right", "ij kl\nmn op\n")]

def diagnostic : Diagnostic where
  severity := .error
  message := "pages"
  labels := [
    ⟨.secondary, .int 1, 0, 5, "a line", by decide, by decide⟩,
    ⟨.primary, .int 0, 6, 8, "third word", by decide, by decide⟩,
    ⟨.primary, .bool true, 9, 11, "last word", by decide, by decide⟩,
    ⟨.primary, .int 1, 3, 5, "second word", by decide, by decide⟩]

theorem valid : ∀ label ∈ diagnostic.labels, label.IsValid base := by
  decide +kernel

end Pages

namespace Plan

/-!
# Plans of valid diagnostics
-/

theorem anchors_exact (base : FileBase) (first : Int) (options : Options) (diagnostic : Diagnostic)
    (valid : ∀ label ∈ diagnostic.labels, label.IsValid base) :
    ∃ plan, ofDiagnostic (base.numberedFrom first) options diagnostic = .ok plan ∧
      plan.files.map (·.id.whole?) = diagnostic.filesNamed ∧
      diagnostic.filesNamed.Nodup ∧
      ∀ file ∈ plan.files, file.IsAnchored (base.numberedFrom first) options diagnostic := by
  refine ⟨_, ofDiagnostic_eq valid, map_whole?_files options first valid,
    diagnostic.nodup_filesNamed, ?_⟩
  intro file member
  rcases fileOf_of_mem valid member with ⟨record, known⟩
  exact known.isAnchored valid

/-- The right page comes first, and its two names count as one mention. -/
theorem anchors_exact_pages :
    (∀ label ∈ Pages.diagnostic.labels, label.IsValid Pages.base) ∧
      ∃ plan, ofDiagnostic (Pages.base.numberedFrom 1) {} Pages.diagnostic = .ok plan ∧
        plan.files.map (·.id.whole?) = [some 1, some 0] ∧
        ∀ file ∈ plan.files,
          file.IsAnchored (Pages.base.numberedFrom 1) {} Pages.diagnostic := by
  rcases anchors_exact Pages.base 1 {} Pages.diagnostic Pages.valid with
    ⟨plan, planned, listed, _, anchored⟩
  exact ⟨Pages.valid, plan, planned, listed, anchored⟩

end Plan
end SourceReport

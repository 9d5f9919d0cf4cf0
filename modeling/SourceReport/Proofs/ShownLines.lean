import SourceReport.Proofs.PlannedLines

/-!
# Shown lines

The plan of a valid diagnostic shows in each of its files the lines that some label shows, in
ascending order and once each, whatever windows and spans overlap.
-/

namespace SourceReport
namespace Plan

theorem rendered_lines_exact (base : FileBase) (first : Int) (options : Options)
    (diagnostic : Diagnostic) (valid : ∀ label ∈ diagnostic.labels, label.IsValid base) :
    ∃ plan, ofDiagnostic (base.numberedFrom first) options diagnostic = .ok plan ∧
      (∀ label ∈ diagnostic.labels, ∃ file ∈ plan.files, file.id.same label.file = true) ∧
      ∀ file ∈ plan.files, ∃ record, base.Holds file.id record ∧
        (file.renderedLines.map (·.index)).Pairwise (· < ·) ∧
        ∀ i, i ∈ file.renderedLines.map (·.index) ↔
          ∃ label ∈ diagnostic.labelsIn file.id, record.Shows options label i := by
  refine ⟨_, ofDiagnostic_eq valid, ?_, ?_⟩
  · intro label listed
    exact exists_file valid listed
  · intro file member
    rcases fileOf_of_mem valid member with ⟨record, planned⟩
    refine ⟨record, planned.held, ?_, planned.mem_index_renderedLines⟩
    rw [List.pairwise_map]
    exact planned.pairwise_renderedLines

theorem rendered_lines_exact_letters :
    (∀ label ∈ Letters.diagnostic.labels, label.IsValid Letters.base) ∧
      ∃ plan, ofDiagnostic Letters.base.lookup {} Letters.diagnostic = .ok plan ∧
        (∀ label ∈ Letters.diagnostic.labels,
          ∃ file ∈ plan.files, file.id.same label.file = true) ∧
        ∀ file ∈ plan.files, ∃ record, Letters.base.Holds file.id record ∧
          (file.renderedLines.map (·.index)).Pairwise (· < ·) ∧
          ∀ i, i ∈ file.renderedLines.map (·.index) ↔
            ∃ label ∈ Letters.diagnostic.labelsIn file.id, record.Shows {} label i :=
  ⟨Letters.valid, rendered_lines_exact Letters.base 1 {} Letters.diagnostic Letters.valid⟩

end Plan
end SourceReport

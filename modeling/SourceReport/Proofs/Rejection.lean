import SourceReport.Proofs.Snippets

/-!
# Rejected labels

A diagnostic with a label that is not valid is rejected as a whole, in every view and before
anything is drawn. The first such label decides the failure.
-/

namespace SourceReport
namespace Label

/-!
# Reasons to reject a label
-/

/-- Why a label has no place in its file. Its file is looked up first, then its end is held against
the length of the source, then its start and its end against the characters. -/
def rejection? (base : FileBase) (label : Label) : Option Failure :=
  match base.get label.file with
  | .error _ => some (.fileMissing label.file)
  | .ok record =>
      if record.encoded.length < label.stop then
        some (.indexTooLarge label.stop (record.encoded.length - 1 : Nat))
      else if ¬ record.IsCut label.start then some (.invalidCharBoundary label.start)
      else if ¬ record.IsCut label.stop then some (.invalidCharBoundary label.stop)
      else none

variable {base : FileBase} {label : Label} {record : FileRecord}

theorem rejection?_of_not_holds (h : ∀ record, ¬ base.Holds label.file record) :
    label.rejection? base = some (.fileMissing label.file) := by
  rw [rejection?, FileBase.get_of_not_holds h]

theorem rejection?_eq_none_iff : label.rejection? base = none ↔ label.IsValid base := by
  by_cases known : ∃ record, base.Holds label.file record
  · rcases known with ⟨record, held⟩
    rw [isValid_iff_fitsIn held, FitsIn, rejection?, FileBase.get_eq_ok_iff.mpr held]
    by_cases long : record.encoded.length < label.stop
    · have outside : ¬ label.stop ≤ record.encoded.length := Nat.not_le_of_lt long
      simp [long, outside]
    · have inside : label.stop ≤ record.encoded.length := Nat.le_of_not_lt long
      by_cases start : record.IsCut label.start
      · by_cases stop : record.IsCut label.stop
        · simp [long, inside, start, stop]
        · simp [long, start, stop]
      · simp [long, start]
  · have missing : ∀ record, ¬ base.Holds label.file record := by
      intro record held
      exact known ⟨record, held⟩
    rw [rejection?_of_not_holds missing]
    constructor
    · intro none
      cases none
    · rintro ⟨record, held, _⟩
      exact absurd held (missing record)

theorem checkRange_of_rejection? (held : base.Holds label.file record) {failure : Failure}
    (rejected : label.rejection? base = some failure) :
    Slice.checkRange record.encoded label.start label.stop = .error failure := by
  have order := label.start_le_stop
  rw [rejection?, FileBase.get_eq_ok_iff.mpr held] at rejected
  simp only at rejected
  rw [Slice.checkRange]
  by_cases long : record.encoded.length < label.stop
  · rw [if_pos long] at rejected
    cases rejected
    have outside : (record.encoded.length : Int) < label.start ∨
        (record.encoded.length : Int) < label.stop := by omega
    have given : max (label.start : Int) label.stop = label.stop := by omega
    have last : max ((record.encoded.length : Int) - 1) 0 =
        (record.encoded.length - 1 : Nat) := by omega
    rw [if_pos outside, given, last]
  · have inside : ¬ ((record.encoded.length : Int) < label.start ∨
        (record.encoded.length : Int) < label.stop) := by omega
    rw [if_neg long] at rejected
    rw [if_neg inside]
    by_cases start : record.IsCut label.start
    · by_cases stop : record.IsCut label.stop
      · simp [start, stop] at rejected
      · simp only [start, stop] at rejected
        cases rejected
        rw [(record.isBoundary_iff label.start).mpr start, record.isBoundary_eq_false stop]
        rfl
    · simp only [start] at rejected
      cases rejected
      rw [record.isBoundary_eq_false start]
      rfl

end Label

namespace Plan

variable {base : FileBase} {first : Int} {options : Options} {labels : List Label}

/-!
# The rich view
-/

/-- A file that is not known was not mentioned before by a valid label. -/
theorem mention_of_not_holds {done : List Label} (valid : ∀ label ∈ done, label.IsValid base)
    {file : Scalar} (number : file.whole?.isSome = true)
    (missing : ∀ record, ¬ base.Holds file record) :
    mention (done.map (base.placed options first)) file = file := by
  rw [mention]
  split
  · rename_i placement found
    have same := List.find?_some found
    rcases List.mem_map.mp (List.mem_of_find?_eq_some found) with ⟨label, member, rfl⟩
    rcases valid label member with ⟨record, held, _⟩
    exact absurd (held.of_same number same) (missing record)
  · rfl

theorem ofLabel_of_rejection? {done : List Label} (valid : ∀ label ∈ done, label.IsValid base)
    {label : Label} (number : label.file.whole?.isSome = true) {failure : Failure}
    (rejected : label.rejection? base = some failure) :
    Placement.ofLabel (base.numberedFrom first) options
        (mention (done.map (base.placed options first)) label.file) label = .error failure := by
  by_cases known : ∃ record, base.Holds label.file record
  · rcases known with ⟨record, held⟩
    rw [Placement.ofLabel, (mention_holds valid held).encoded_eq]
    simp only [bind, Except.bind, Label.checkRange_of_rejection? held rejected]
  · have missing : ∀ record, ¬ base.Holds label.file record := by
      intro record held
      exact known ⟨record, held⟩
    rw [Label.rejection?_of_not_holds missing] at rejected
    cases rejected
    rw [mention_of_not_holds valid number missing, Placement.ofLabel,
      FileBase.encoded_of_not_holds missing]
    rfl

/-- The first rejected label ends the placing of labels. -/
theorem placeFrom_of_rejection? {done : List Label} (before : ∀ label ∈ done, label.IsValid base)
    (numbers : ∀ label ∈ labels, label.file.whole?.isSome = true) {failure : Failure}
    (rejected : labels.findSome? (fun label => label.rejection? base) = some failure) :
    placeFrom (base.numberedFrom first) options (done.map (base.placed options first)) labels =
      .error failure := by
  -- All labels before the rejected one are valid and have been placed.
  induction labels generalizing done with
  | nil => cases rejected
  | cons label rest ih =>
      rw [List.forall_mem_cons] at numbers
      rw [List.findSome?_cons] at rejected
      cases reason : label.rejection? base with
      | some this =>
          rw [reason] at rejected
          cases rejected
          rw [placeFrom, ofLabel_of_rejection? before numbers.1 reason]
          rfl
      | none =>
          rw [reason] at rejected
          have valid := Label.rejection?_eq_none_iff.mp reason
          have extended := List.forall_mem_append.mpr ⟨before, List.forall_mem_singleton.mpr valid⟩
          rw [placeFrom_cons before valid]
          exact ih extended numbers.2 rejected

theorem ofDiagnostic_of_rejection? {diagnostic : Diagnostic}
    (numbers : ∀ label ∈ diagnostic.labels, label.file.whole?.isSome = true) {failure : Failure}
    (rejected : diagnostic.labels.findSome? (fun label => label.rejection? base) = some failure) :
    ofDiagnostic (base.numberedFrom first) options diagnostic = .error failure := by
  have before : ∀ label ∈ ([] : List Label), label.IsValid base := List.forall_mem_nil _
  have failed : placements (base.numberedFrom first) options diagnostic.labels = .error failure :=
    placeFrom_of_rejection? before numbers rejected
  rw [ofDiagnostic, failed]
  rfl

/-!
# Labels with any id
-/

/-- A label that is not valid has no placement, whatever its file is called: where the id is no
number that the base knows, its line is looked up in vain. -/
theorem exists_ofLabel_eq_error {done : List Label} (before : ∀ label ∈ done, label.IsValid base)
    {label : Label} (invalid : ¬ label.IsValid base) :
    ∃ failure, Placement.ofLabel (base.numberedFrom first) options
      (mention (done.map (base.placed options first)) label.file) label = .error failure := by
  by_cases known : ∃ record, base.Holds label.file record
  · rcases known with ⟨record, held⟩
    rw [← Label.rejection?_eq_none_iff] at invalid
    rcases Option.ne_none_iff_exists'.mp invalid with ⟨failure, rejected⟩
    exact ⟨failure, ofLabel_of_rejection? before held.isSome_whole? rejected⟩
  · have missing : ∀ record, ¬ base.Holds label.file record := by
      intro record held
      exact known ⟨record, held⟩
    have unknown : (base.numberedFrom first).lineIndex label.file label.start =
        .error (.fileMissing label.file) := by
      show (base.get label.file).map _ = _
      rw [FileBase.get_of_not_holds missing]
      rfl
    rw [Placement.ofLabel]
    cases (base.numberedFrom first).encoded
        (mention (done.map (base.placed options first)) label.file) with
    | error failure => exact ⟨failure, rfl⟩
    | ok bytes =>
        simp only [bind, Except.bind]
        cases Slice.checkRange bytes label.start label.stop with
        | error failure => exact ⟨failure, rfl⟩
        | ok _ =>
            rw [unknown]
            exact ⟨_, rfl⟩

theorem exists_placeFrom_eq_error {done : List Label}
    (before : ∀ label ∈ done, label.IsValid base)
    (invalid : ∃ label ∈ labels, ¬ label.IsValid base) :
    ∃ failure, placeFrom (base.numberedFrom first) options
      (done.map (base.placed options first)) labels = .error failure := by
  induction labels generalizing done with
  | nil =>
      rcases invalid with ⟨label, member, _⟩
      cases member
  | cons label rest ih =>
      by_cases valid : label.IsValid base
      · rcases invalid with ⟨other, member, rejected⟩
        have later : other ∈ rest := by
          rcases List.mem_cons.mp member with rfl | later
          · exact absurd valid rejected
          · exact later
        have extended := List.forall_mem_append.mpr ⟨before, List.forall_mem_singleton.mpr valid⟩
        rw [placeFrom_cons before valid]
        exact ih extended ⟨other, later, rejected⟩
      · rcases @exists_ofLabel_eq_error base first options done before label valid with
          ⟨failure, failed⟩
        rw [placeFrom, failed]
        exact ⟨failure, rfl⟩

end Plan

namespace View

variable {base : FileBase} {first : Int} {options : Options} {diagnostic : Diagnostic}

/-!
# The short view
-/

theorem checkLabels_cons_of_rejection? {label : Label} {failure : Failure}
    (rejected : label.rejection? base = some failure) (rest : List Label) :
    Short.checkLabels (base.numberedFrom first) (label :: rest) = .error failure := by
  by_cases known : ∃ record, base.Holds label.file record
  · rcases known with ⟨record, held⟩
    rw [Short.checkLabels, held.encoded_eq]
    simp only [bind, Except.bind, Label.checkRange_of_rejection? held rejected]
  · have missing : ∀ record, ¬ base.Holds label.file record := by
      intro record held
      exact known ⟨record, held⟩
    rw [Label.rejection?_of_not_holds missing] at rejected
    cases rejected
    rw [Short.checkLabels, FileBase.encoded_of_not_holds missing]
    rfl

theorem checkLabels_cons {label : Label} (valid : label.IsValid base) (rest : List Label) :
    Short.checkLabels (base.numberedFrom first) (label :: rest) =
      Short.checkLabels (base.numberedFrom first) rest := by
  rcases valid with ⟨record, held, fits⟩
  rw [Short.checkLabels, held.encoded_eq]
  simp only [bind, Except.bind, fits.checkRange_eq]

theorem checkLabels_eq (labels : List Label) :
    Short.checkLabels (base.numberedFrom first) labels =
      match labels.findSome? fun label => label.rejection? base with
      | some failure => .error failure
      | none => .ok () := by
  induction labels with
  | nil => rfl
  | cons label rest ih =>
      rw [List.findSome?_cons]
      cases reason : label.rejection? base with
      | some failure => rw [checkLabels_cons_of_rejection? reason]
      | none => rw [checkLabels_cons (Label.rejection?_eq_none_iff.mp reason), ih]

theorem headerStep_eq {label : Label} (valid : label.IsValid base) :
    ∃ row, Short.headerStep (base.numberedFrom first) diagnostic label = .row 0 row := by
  rcases valid with ⟨record, held, _⟩
  rw [Short.headerStep, held.locus_eq]
  exact ⟨_, rfl⟩

/-!
# All views
-/

/-- A rejected diagnostic fails at once, for the same reason in every view. -/
theorem steps_of_rejection?
    (numbers : ∀ label ∈ diagnostic.labels, label.file.whole?.isSome = true) {failure : Failure}
    (rejected : diagnostic.labels.findSome? (fun label => label.rejection? base) = some failure) :
    steps (base.numberedFrom first) options diagnostic = [.fail failure] := by
  rw [steps]
  cases options.displayStyle with
  | rich =>
      simp only [Rich.steps]
      rw [Plan.ofDiagnostic_of_rejection? numbers rejected]
  | medium => simp only [Short.steps, checkLabels_eq, rejected]
  | short => simp only [Short.steps, checkLabels_eq, rejected]

theorem fail_not_mem_noteSteps (padding : Nat) (notes : List String) (failure : Failure) :
    Step.fail failure ∉ noteSteps padding notes := by
  intro member
  rcases List.mem_flatMap.mp member with ⟨note, _, listed⟩
  rcases List.mem_map.mp listed with ⟨row, _, this⟩
  cases this

theorem fail_not_mem_headerSteps (valid : ∀ label ∈ diagnostic.labels, label.IsValid base)
    (failure : Failure) :
    Step.fail failure ∉ Short.headerSteps (base.numberedFrom first) diagnostic := by
  intro member
  rw [Short.headerSteps] at member
  split at member
  · rcases List.mem_singleton.mp member with ⟨⟩
  · rcases List.mem_map.mp member with ⟨label, listed, this⟩
    rcases headerStep_eq (valid label (List.mem_filter.mp listed).1) with ⟨row, drawn⟩
    rw [drawn] at this
    cases this

/-- The drawing of a valid diagnostic meets no failure, in any view. -/
theorem fail_not_mem_steps (valid : ∀ label ∈ diagnostic.labels, label.IsValid base)
    (failure : Failure) :
    Step.fail failure ∉ steps (base.numberedFrom first) options diagnostic := by
  have unrejected : (diagnostic.labels.findSome? fun label => label.rejection? base) = none := by
    rw [List.findSome?_eq_none_iff]
    intro label listed
    exact Label.rejection?_eq_none_iff.mpr (valid label listed)
  have short : ∀ withNotes, Step.fail failure ∉
      Short.steps (base.numberedFrom first) withNotes diagnostic := by
    intro withNotes
    simp only [Short.steps, checkLabels_eq, unrejected]
    rw [List.mem_append, not_or]
    constructor
    · exact fail_not_mem_headerSteps valid failure
    · split
      · exact fail_not_mem_noteSteps 0 diagnostic.notes failure
      · exact List.not_mem_nil
  rw [steps]
  cases options.displayStyle with
  | rich => exact Rich.fail_not_mem_steps valid failure
  | medium => exact short true
  | short => exact short false

/-- A diagnostic with a label that is not valid fails at once, in every view. -/
theorem exists_steps_eq_fail (invalid : ∃ label ∈ diagnostic.labels, ¬ label.IsValid base) :
    ∃ failure, steps (base.numberedFrom first) options diagnostic = [.fail failure] := by
  have short : ∀ withNotes, ∃ failure,
      Short.steps (base.numberedFrom first) withNotes diagnostic = [.fail failure] := by
    intro withNotes
    rcases invalid with ⟨label, listed, invalid⟩
    rw [← Label.rejection?_eq_none_iff] at invalid
    simp only [Short.steps, checkLabels_eq]
    cases reason : diagnostic.labels.findSome? fun label => label.rejection? base with
    | some failure => exact ⟨failure, rfl⟩
    | none => exact absurd (List.findSome?_eq_none_iff.mp reason label listed) invalid
  rw [steps]
  cases options.displayStyle with
  | rich =>
      have before : ∀ label ∈ ([] : List Label), label.IsValid base := List.forall_mem_nil _
      rcases @Plan.exists_placeFrom_eq_error base first options diagnostic.labels [] before invalid
        with ⟨failure, failed⟩
      have unplanned : Plan.ofDiagnostic (base.numberedFrom first) options diagnostic =
          .error failure := by
        rw [Plan.ofDiagnostic, Plan.placements]
        rw [List.map_nil] at failed
        rw [failed]
        rfl
      refine ⟨failure, ?_⟩
      simp only [Rich.steps, unplanned]
  | medium => exact short true
  | short => exact short false

end View
end SourceReport

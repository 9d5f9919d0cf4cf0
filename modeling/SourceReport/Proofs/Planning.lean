import Mathlib.Data.List.Induction
import SourceReport.Proofs.Placing

/-!
# Plans of valid diagnostics

If all labels are valid there is a plan, and each of its files is laid out from the labels in that
file alone. The plan has a file for every label, and no two of its files are the same.
-/

namespace SourceReport

/-- The labels of a diagnostic in the file that an id addresses, in order. -/
def Diagnostic.labelsIn (diagnostic : Diagnostic) (id : Scalar) : List Label :=
  diagnostic.labels.filter fun label => id.same label.file

namespace FileBase

/-- The record that an id addresses, and an empty one if there is none. -/
def recordAt (base : FileBase) (id : Scalar) : FileRecord :=
  match base.get id with
  | .ok record => record
  | .error _ => FileRecord.of "" ""

def placed (base : FileBase) (options : Options) (first : Int) (label : Label) : Placement :=
  (base.recordAt label.file).placement options first label

variable {base : FileBase} {first : Int} {id other : Scalar} {record : FileRecord}

theorem Holds.recordAt_eq (held : base.Holds id record) : base.recordAt id = record := by
  rw [recordAt, get_eq_ok_iff.mpr held]

theorem Holds.placed_eq {label : Label} (held : base.Holds label.file record)
    (options : Options) :
    base.placed options first label = record.placement options first label := by
  rw [placed, held.recordAt_eq]

end FileBase

namespace Plan

variable {base : FileBase} {first : Int} {options : Options} {labels : List Label}

/-!
# Placing all labels
-/

/-- Labels that were placed before name the same record, if they name the same file. -/
theorem mention_holds {done : List Label} (valid : ∀ label ∈ done, label.IsValid base)
    {file : Scalar} {record : FileRecord} (held : base.Holds file record) :
    base.Holds (mention (done.map (base.placed options first)) file) record := by
  rw [mention]
  split
  · rename_i placement found
    have same := List.find?_some found
    rcases List.mem_map.mp (List.mem_of_find?_eq_some found) with ⟨label, member, rfl⟩
    rcases valid label member with ⟨next, known, _⟩
    have again := known.of_same held.isSome_whole? same
    rw [← again.unique held]
    exact known
  · exact held

theorem placeFrom_cons {done : List Label} (before : ∀ label ∈ done, label.IsValid base)
    {label : Label} (valid : label.IsValid base) (rest : List Label) :
    placeFrom (base.numberedFrom first) options (done.map (base.placed options first))
        (label :: rest) =
      placeFrom (base.numberedFrom first) options
        ((done ++ [label]).map (base.placed options first)) rest := by
  rcases valid with ⟨record, held, fits⟩
  rw [placeFrom, Placement.ofLabel_eq options (mention_holds before held) held fits,
    List.map_append, List.map_singleton, held.placed_eq options]
  rfl

theorem placeFrom_eq {done : List Label} (before : ∀ label ∈ done, label.IsValid base)
    (valid : ∀ label ∈ labels, label.IsValid base) :
    placeFrom (base.numberedFrom first) options (done.map (base.placed options first)) labels =
      .ok ((done ++ labels).map (base.placed options first)) := by
  induction labels generalizing done with
  | nil =>
      rw [List.append_nil]
      rfl
  | cons label rest ih =>
      rw [List.forall_mem_cons] at valid
      have extended := List.forall_mem_append.mpr ⟨before, List.forall_mem_singleton.mpr valid.1⟩
      rw [placeFrom_cons before valid.1, ih extended valid.2, List.append_assoc]
      rfl

theorem placements_eq (valid : ∀ label ∈ labels, label.IsValid base) :
    placements (base.numberedFrom first) options labels =
      .ok (labels.map (base.placed options first)) := by
  have before : ∀ label ∈ ([] : List Label), label.IsValid base := List.forall_mem_nil _
  exact placeFrom_eq before valid

/-!
# First mentions
-/

def addMention (heads : List Placement) (placement : Placement) : List Placement :=
  if heads.any (·.label.file.same placement.label.file) then heads else heads ++ [placement]

theorem firstMentions_concat (placements : List Placement) (placement : Placement) :
    firstMentions (placements ++ [placement]) =
      addMention (firstMentions placements) placement := by
  rw [firstMentions, List.foldl_append]
  rfl

/-- Every first mention is one of the placements. -/
theorem mem_of_mem_firstMentions {placements : List Placement} {head : Placement}
    (h : head ∈ firstMentions placements) : head ∈ placements := by
  induction placements using List.reverseRecOn with
  | nil => exact h
  | append_singleton front placement ih =>
      rw [firstMentions_concat, addMention] at h
      rw [List.mem_append]
      split at h
      · exact Or.inl (ih h)
      · rcases List.mem_append.mp h with earlier | this
        · exact Or.inl (ih earlier)
        · exact Or.inr this

/-- No two first mentions name the same file. -/
theorem pairwise_firstMentions (placements : List Placement) :
    (firstMentions placements).Pairwise fun a b => a.label.file.same b.label.file = false := by
  induction placements using List.reverseRecOn with
  | nil => exact List.Pairwise.nil
  | append_singleton front placement ih =>
      rw [firstMentions_concat, addMention]
      split
      · exact ih
      · rename_i fresh
        rw [List.pairwise_append]
        refine ⟨ih, List.pairwise_singleton _ _, ?_⟩
        intro head member next this
        rw [List.mem_singleton.mp this]
        cases same : head.label.file.same placement.label.file with
        | false => rfl
        | true => exact absurd (List.any_eq_true.mpr ⟨head, member, same⟩) fresh

/-- Every placement has a first mention of its file, which is the same as itself. -/
theorem exists_firstMention {placements : List Placement}
    (reflexive : ∀ placement ∈ placements,
      placement.label.file.same placement.label.file = true)
    {placement : Placement} (h : placement ∈ placements) :
    ∃ head ∈ firstMentions placements,
      head.label.file.same placement.label.file = true := by
  induction placements using List.reverseRecOn with
  | nil => cases h
  | append_singleton front last ih =>
      rw [firstMentions_concat, addMention]
      rcases List.mem_append.mp h with earlier | this
      · have known := ih (fun next member =>
          reflexive next (List.mem_append_left [last] member)) earlier
        rcases known with ⟨head, member, same⟩
        split
        · exact ⟨head, member, same⟩
        · exact ⟨head, List.mem_append_left [last] member, same⟩
      · rw [List.mem_singleton.mp this]
        split
        · rename_i found
          exact List.any_eq_true.mp found
        · have member := List.mem_append_right front (List.mem_singleton_self last)
          exact ⟨last, List.mem_append_right _ (List.mem_singleton_self last),
            reflexive last member⟩

/-!
# The files of a plan
-/

/-- The file is planned from the labels in it, which fit into the record that it addresses. -/
structure FileOf (base : FileBase) (options : Options) (first : Int) (diagnostic : Diagnostic)
    (file : PlannedFile) (record : FileRecord) : Prop where
  held : base.Holds file.id record
  fits : ∀ label ∈ diagnostic.labelsIn file.id, label.FitsIn record
  planned : ∃ head ∈ diagnostic.labelsIn file.id,
    file = plannedFile (base.numberedFrom first) options (record.placement options first head)
      ((diagnostic.labelsIn file.id).map (record.placement options first))

variable {diagnostic : Diagnostic} {file : PlannedFile}

theorem ofDiagnostic_eq (valid : ∀ label ∈ diagnostic.labels, label.IsValid base) :
    ofDiagnostic (base.numberedFrom first) options diagnostic =
      .ok {
        files := plannedFiles (base.numberedFrom first) options
          (diagnostic.labels.map (base.placed options first))
        padding := gutterWidth (base.numberedFrom first)
          (diagnostic.labels.map (base.placed options first)) } := by
  rw [ofDiagnostic, placements_eq valid]
  rfl

theorem filter_map_placed (options : Options) (first : Int) {id : Scalar} {record : FileRecord}
    (held : base.Holds id record) (valid : ∀ label ∈ labels, label.IsValid base) :
    (labels.map (base.placed options first)).filter
        (fun placement => id.same placement.label.file) =
      (labels.filter fun label => id.same label.file).map (record.placement options first) := by
  rw [List.filter_map]
  apply List.map_congr_left
  intro label member
  rcases List.mem_filter.mp member with ⟨listed, same⟩
  rcases valid label listed with ⟨next, known, _⟩
  have again := held.of_same known.isSome_whole? same
  exact again.placed_eq options

/-- The placements in one file are those of the labels in it. -/
theorem filter_placed (options : Options) (first : Int) {id : Scalar} {record : FileRecord}
    (held : base.Holds id record)
    (valid : ∀ label ∈ diagnostic.labels, label.IsValid base) :
    (diagnostic.labels.map (base.placed options first)).filter
        (fun placement => id.same placement.label.file) =
      (diagnostic.labelsIn id).map (record.placement options first) :=
  filter_map_placed options first held valid

theorem fitsIn_of_mem_labelsIn {id : Scalar} {record : FileRecord} (held : base.Holds id record)
    (valid : ∀ label ∈ diagnostic.labels, label.IsValid base) :
    ∀ label ∈ diagnostic.labelsIn id, label.FitsIn record := by
  intro label member
  rcases List.mem_filter.mp member with ⟨listed, same⟩
  rcases valid label listed with ⟨next, known, fits⟩
  have again := held.of_same known.isSome_whole? same
  rw [again.unique known]
  exact fits

theorem fileOf_of_mem (valid : ∀ label ∈ diagnostic.labels, label.IsValid base)
    (h : file ∈ plannedFiles (base.numberedFrom first) options
      (diagnostic.labels.map (base.placed options first))) :
    ∃ record, FileOf base options first diagnostic file record := by
  rcases List.mem_map.mp h with ⟨head, mentioned, rfl⟩
  rcases List.mem_map.mp (mem_of_mem_firstMentions mentioned) with ⟨label, listed, rfl⟩
  rcases valid label listed with ⟨record, held, fits⟩
  have known : (label.file.same label.file) = true :=
    (held.same_iff held.isSome_whole?).mpr rfl
  refine ⟨record, held, fitsIn_of_mem_labelsIn held valid, label, ?_, ?_⟩
  · exact List.mem_filter.mpr ⟨listed, known⟩
  · have placements := filter_placed options first held valid
    show plannedFile (base.numberedFrom first) options (base.placed options first label)
      ((diagnostic.labels.map (base.placed options first)).filter
        fun placement => label.file.same placement.label.file) = _
    rw [placements, held.placed_eq]
    rfl

theorem same_self (valid : ∀ label ∈ diagnostic.labels, label.IsValid base) :
    ∀ placement ∈ diagnostic.labels.map (base.placed options first),
      placement.label.file.same placement.label.file = true := by
  intro placement member
  rcases List.mem_map.mp member with ⟨label, listed, rfl⟩
  rcases valid label listed with ⟨record, held, _⟩
  exact (held.same_iff held.isSome_whole?).mpr rfl

theorem exists_file (valid : ∀ label ∈ diagnostic.labels, label.IsValid base) {label : Label}
    (listed : label ∈ diagnostic.labels) :
    ∃ file ∈ plannedFiles (base.numberedFrom first) options
        (diagnostic.labels.map (base.placed options first)),
      file.id.same label.file = true := by
  have member := List.mem_map_of_mem (f := base.placed options first) listed
  rcases exists_firstMention (same_self valid) member with ⟨head, mentioned, same⟩
  exact ⟨_, List.mem_map_of_mem mentioned, same⟩

theorem exists_fileOf {plan : Plan} (valid : ∀ label ∈ diagnostic.labels, label.IsValid base)
    (planned : ofDiagnostic (base.numberedFrom first) options diagnostic = .ok plan)
    (member : file ∈ plan.files) :
    ∃ record, FileOf base options first diagnostic file record := by
  rw [ofDiagnostic_eq valid] at planned
  cases planned
  exact fileOf_of_mem valid member

theorem exists_file_of_plan {plan : Plan} (valid : ∀ label ∈ diagnostic.labels, label.IsValid base)
    (planned : ofDiagnostic (base.numberedFrom first) options diagnostic = .ok plan)
    {label : Label} (listed : label ∈ diagnostic.labels) :
    ∃ file ∈ plan.files, file.id.same label.file = true := by
  rw [ofDiagnostic_eq valid] at planned
  cases planned
  exact exists_file valid listed

theorem pairwise_files (placements : List Placement) (lookup : Lookup) :
    (plannedFiles lookup options placements).Pairwise fun a b => a.id.same b.id = false := by
  rw [plannedFiles, List.pairwise_map]
  exact pairwise_firstMentions placements

namespace FileOf

variable {record : FileRecord}

theorem lines_eq (h : FileOf base options first diagnostic file record) :
    file.lines =
      (touchedLines ((diagnostic.labelsIn file.id).map (record.placement options first))).map
        (plannedLine (base.numberedFrom first) options
          ((diagnostic.labelsIn file.id).map (record.placement options first))) := by
  rcases h.planned with ⟨head, _, planned⟩
  exact congrArg PlannedFile.lines planned

theorem numBrackets_eq (h : FileOf base options first diagnostic file record) :
    file.numBrackets =
      (bracketed
        ((diagnostic.labelsIn file.id).map (record.placement options first))).length := by
  rcases h.planned with ⟨head, _, planned⟩
  exact congrArg PlannedFile.numBrackets planned

theorem labels_ne_nil (h : FileOf base options first diagnostic file record) :
    diagnostic.labelsIn file.id ≠ [] := by
  rcases h.planned with ⟨head, member, _⟩
  exact List.ne_nil_of_mem member

end FileOf
end Plan
end SourceReport

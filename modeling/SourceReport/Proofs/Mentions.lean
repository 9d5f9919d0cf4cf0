import SourceReport.Proofs.Planning

/-!
# Mentions of files

The files of a plan stand in the order in which the labels name them first. Ids that count as the
same number name the same file, whatever their kind.
-/

namespace SourceReport

/-- The files that labels name, each at the place where it is named first. -/
def Diagnostic.filesNamed (diagnostic : Diagnostic) : List (Option Int) :=
  (diagnostic.labels.map (·.file.whole?)).eraseDups

theorem FileBase.Holds.same_iff_of_holds {base : FileBase} {id other : Scalar}
    {record next : FileRecord} (held : base.Holds id record) (known : base.Holds other next) :
    id.same other = true ↔ id.whole? = other.whole? :=
  held.same_iff known.isSome_whole?

theorem FileBase.Holds.of_whole? {base : FileBase} {id other : Scalar} {record : FileRecord}
    (held : base.Holds id record) (same : id.whole? = other.whole?) : base.Holds other record := by
  rw [Holds, ← same]
  exact held

namespace Plan

variable {base : FileBase} {options : Options} {first : Int} {placements : List Placement}

/-!
# First mentions
-/

theorem eraseDups_concat {α : Type} [BEq α] [LawfulBEq α] (list : List α) (x : α) :
    (list ++ [x]).eraseDups = if list.elem x then list.eraseDups else list.eraseDups ++ [x] := by
  rw [List.eraseDups_append, List.removeAll, List.filter_cons]
  cases list.elem x with
  | true => exact List.append_nil _
  | false => rfl

/-- Whether a file is mentioned already depends only on the number that its id counts as. -/
theorem any_same_firstMentions
    (known : ∀ placement ∈ placements, ∃ record, base.Holds placement.label.file record)
    {id : Scalar} {record : FileRecord} (held : base.Holds id record) :
    ((firstMentions placements).any fun head => head.label.file.same id) =
      (placements.map (·.label.file.whole?)).elem id.whole? := by
  have reflexive : ∀ placement ∈ placements,
      placement.label.file.same placement.label.file = true := by
    intro placement member
    rcases known placement member with ⟨_, found⟩
    exact (found.same_iff_of_holds found).mpr rfl
  rw [Bool.eq_iff_iff, List.any_eq_true, List.elem_eq_mem, decide_eq_true_eq]
  constructor
  · intro earlier
    rcases earlier with ⟨head, mentioned, same⟩
    have member := mem_of_mem_firstMentions mentioned
    rcases known head member with ⟨_, found⟩
    have numbers := (found.same_iff_of_holds held).mp same
    rw [← numbers]
    exact List.mem_map_of_mem member
  · intro listed
    rcases List.mem_map.mp listed with ⟨placement, member, number⟩
    rcases exists_firstMention reflexive member with ⟨head, mentioned, same⟩
    rcases known head (mem_of_mem_firstMentions mentioned) with ⟨_, found⟩
    rcases known placement member with ⟨_, other⟩
    have numbers := (found.same_iff_of_holds other).mp same
    exact ⟨head, mentioned, (found.same_iff_of_holds held).mpr (numbers.trans number)⟩

theorem map_whole?_firstMentions
    (known : ∀ placement ∈ placements, ∃ record, base.Holds placement.label.file record) :
    (firstMentions placements).map (·.label.file.whole?) =
      (placements.map (·.label.file.whole?)).eraseDups := by
  induction placements using List.reverseRecOn with
  | nil => rfl
  | append_singleton front placement ih =>
      rw [List.forall_mem_append, List.forall_mem_singleton] at known
      rcases known.2 with ⟨_, held⟩
      rw [firstMentions_concat, addMention, any_same_firstMentions known.1 held, List.map_append,
        List.map_singleton, eraseDups_concat, ← ih known.1]
      split
      · rfl
      · rw [List.map_append, List.map_singleton]

/-!
# The files of a plan
-/

variable {diagnostic : Diagnostic}

theorem holds_of_placed (options : Options) (first : Int)
    (valid : ∀ label ∈ diagnostic.labels, label.IsValid base) :
    ∀ placement ∈ diagnostic.labels.map (base.placed options first),
      ∃ record, base.Holds placement.label.file record := by
  intro placement member
  rcases List.mem_map.mp member with ⟨label, listed, rfl⟩
  rcases valid label listed with ⟨record, held, _⟩
  exact ⟨record, held⟩

/-- A plan has the files that the labels name, in the order in which they name them first. -/
theorem map_whole?_files (options : Options) (first : Int)
    (valid : ∀ label ∈ diagnostic.labels, label.IsValid base) :
    (plannedFiles (base.numberedFrom first) options
        (diagnostic.labels.map (base.placed options first))).map (·.id.whole?) =
      diagnostic.filesNamed := by
  have heads := map_whole?_firstMentions (holds_of_placed options first valid)
  rw [List.map_map] at heads
  rw [plannedFiles, List.map_map]
  exact heads

/-- The labels in a file, under any name of it. -/
theorem labelsIn_congr (valid : ∀ label ∈ diagnostic.labels, label.IsValid base) {id other : Scalar}
    {record : FileRecord} (held : base.Holds id record) (same : id.whole? = other.whole?) :
    diagnostic.labelsIn id = diagnostic.labelsIn other := by
  apply List.filter_congr
  intro label listed
  rcases valid label listed with ⟨_, known, _⟩
  have again := held.of_whole? same
  rw [Bool.eq_iff_iff, held.same_iff_of_holds known, again.same_iff_of_holds known, same]

end Plan
end SourceReport

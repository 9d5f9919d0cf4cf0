import SourceReport.Proofs.Files

/-!
# Updates

An update of a known id writes a text to its record, keeps the name, and leaves all other records as
they are. An unknown id is refused.
-/

namespace SourceReport
namespace FileBase

variable {base : FileBase} {id : Scalar} {place : Nat} {record : FileRecord}

theorem update_of_place (number : id.whole? = some (place : Int))
    (inside : place < base.records.length) (source : Text) :
    base.update id source =
      .ok ⟨base.records.modify place fun record => record.withSource source⟩ := by
  have counted : 0 ≤ (place : Int) ∧ (place : Int) < base.records.length := by omega
  rw [update, place?_eq, number, Option.bind_some, if_pos counted, Int.toNat_natCast]

theorem update_of_no_place
    (missing : ∀ place : Nat, id.whole? = some (place : Int) → base.records.length ≤ place)
    (source : Text) : base.update id source = .error (.fileMissing id) := by
  rw [update, place?_eq]
  cases number : id.whole? with
  | none => rfl
  | some n =>
      have outside : ¬ (0 ≤ n ∧ n < base.records.length) := by
        rintro ⟨low, high⟩
        have place : n = (n.toNat : Int) := by omega
        have bound := missing n.toNat (place ▸ number)
        omega
      rw [Option.bind_some, if_neg outside]

/-- The text is written to the record that an id addresses. -/
theorem Holds.exists_update (held : base.Holds id record) (source : Text) :
    ∃ next, base.update id source = .ok next ∧ next.Holds id (record.withSource source) := by
  rcases held with ⟨place, number, found⟩
  have inside := (List.getElem?_eq_some_iff.mp found).1
  refine ⟨_, update_of_place number inside source, place, number, ?_⟩
  rw [List.getElem?_modify, found]
  simp only [if_true]
  rfl

end FileBase
end SourceReport

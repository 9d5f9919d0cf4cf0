import SourceReport.Proofs.Lines
import SourceReport.Source.Lookup

/-!
# Files and their lookups

What the lookups of a file base answer for an id that addresses a record. Lines may be numbered
from any number on; nothing but the numbers depends on it.
-/

namespace SourceReport
namespace FileRecord

variable (record : FileRecord)

/-!
# The lines of a record
-/

/-- One more than there are newlines in the source. -/
def lineCount : Nat :=
  record.source.toList.count '\n' + 1

def startOf (i : Nat) : Nat :=
  Lines.startOf record.source.toList i

/-- The line that an offset lies on: the number of newlines before it. -/
def lineAt (offset : Nat) : Nat :=
  Lines.lineAt record.encoded offset

/-- An offset between two characters of the source. -/
def IsCut (offset : Nat) : Prop :=
  Utf8.IsCut record.source.toList offset

theorem isBoundary_iff (offset : Nat) :
    Slice.isBoundary record.encoded offset = true ↔ record.IsCut offset := by
  rw [record.encoded_eq]
  exact Slice.isBoundary_encode_iff record.source.toList offset

theorem isBoundary_eq_false {offset : Nat} (h : ¬ record.IsCut offset) :
    Slice.isBoundary record.encoded offset = false := by
  rw [Bool.eq_false_iff, ne_eq, record.isBoundary_iff]
  exact h

instance (record : FileRecord) (offset : Nat) : Decidable (record.IsCut offset) :=
  decidable_of_iff _ (record.isBoundary_iff offset)

theorem length_withEnds : (Lines.withEnds record.source.toList).length = record.lineCount :=
  Lines.length_withEnds record.source.toList

theorem lineAt_lt_lineCount (offset : Nat) : record.lineAt offset < record.lineCount := by
  rw [lineAt, record.encoded_eq, ← length_withEnds]
  exact Lines.lineAt_lt record.source.toList offset

theorem lineAt_mono {a b : Nat} (h : a ≤ b) : record.lineAt a ≤ record.lineAt b :=
  Lines.lineAt_mono record.encoded h

theorem lineIndex_natCast (offset : Nat) : record.lineIndex offset = record.lineAt offset := by
  rw [lineIndex, lineAt, record.lineStarts_eq, record.encoded_eq]
  exact Lines.lineIndex_encode record.source.toList offset

theorem length_lineStarts : record.lineStarts.length = record.lineCount := by
  rw [record.lineStarts_eq, record.encoded_eq, Lines.starts_encode, List.length_map,
    List.length_range, length_withEnds]

theorem lineStart_of_le {i : Nat} (h : i ≤ record.lineCount) :
    record.lineStart i = .ok (record.startOf i : Int) := by
  rcases Nat.lt_or_eq_of_le h with inside | ends
  · have found : record.lineStarts.getD i 0 = record.startOf i := by
      rw [record.lineStarts_eq, record.encoded_eq, Lines.starts_encode,
        List.getD_eq_getElem?_getD, List.getElem?_map, length_withEnds,
        List.getElem?_range inside]
      rfl
    have large : (i : Int) < record.lineCount := by omega
    have low : ¬ (i : Int) < 0 := by omega
    simp only [lineStart, length_lineStarts, if_pos large, if_neg low, Int.toNat_natCast, found]
  · have last : record.encoded.length = record.startOf i := by
      rw [ends, startOf, ← length_withEnds, Lines.startOf_length, record.encoded_eq]
    simp only [lineStart, length_lineStarts, ← ends, Int.lt_irrefl, if_false, if_true, last]

theorem lineStart_of_lt {i : Nat} (h : record.lineCount < i) :
    record.lineStart i = .error (.lineTooLarge i record.lineCount) := by
  have large : ¬ (i : Int) < record.lineCount := by omega
  have other : ¬ (i : Int) = record.lineCount := by omega
  simp only [lineStart, length_lineStarts, if_neg large, if_neg other]

theorem lineRange_of_lt {i : Nat} (h : i < record.lineCount) :
    record.lineRange i = .ok (record.startOf i, record.startOf (i + 1)) := by
  have next : ((i : Int) + 1) = (i + 1 : Nat) := by omega
  rw [lineRange, lineStart_of_le record (Nat.le_of_lt h), next, lineStart_of_le record h]
  rfl

theorem lineRange_of_le {i : Nat} (h : record.lineCount ≤ i) :
    ∃ failure, record.lineRange i = .error failure := by
  have next : ((i : Int) + 1) = (i + 1 : Nat) := by omega
  have failed := lineStart_of_lt record (Nat.lt_succ_of_le h)
  cases found : record.lineStart i with
  | error failure => exact ⟨failure, by rw [lineRange, found]; rfl⟩
  | ok start => exact ⟨_, by rw [lineRange, found, next, failed]; rfl⟩

theorem slice_line {i : Nat} {line : List Char}
    (h : (splitLines record.source.toList)[i]? = some line) :
    Slice.slice record.encoded (record.startOf i) (record.startOf (i + 1)) =
      .ok (String.ofList (if i + 1 < record.lineCount then line ++ ['\n'] else line)) := by
  rw [record.encoded_eq]
  apply Lines.slice_line
  have count : (splitLines record.source.toList).length = record.lineCount :=
    length_pieces '\n' record.source.toList
  rw [Lines.withEnds, Lines.getElem?_addEnds, h, count]
  rfl

end FileRecord

namespace FileBase

/-!
# Files that are added
-/

theorem records_foldl_add (base : FileBase) (files : List (String × String)) :
    (files.foldl (fun base file => base.add file.1 file.2) base).records =
      base.records ++ files.map fun file => FileRecord.of file.1 file.2 := by
  induction files generalizing base with
  | nil => exact (List.append_nil _).symm
  | cons file rest ih =>
      rw [List.foldl_cons, ih, add, List.map_cons, List.append_assoc, List.singleton_append]

theorem records_ofSources (files : List (String × String)) :
    (ofSources files).records = files.map fun file => FileRecord.of file.1 file.2 := by
  rw [ofSources, records_foldl_add]
  rfl

/-!
# Known ids
-/

/-- The id counts as the place of the record in the base. -/
def Holds (base : FileBase) (id : Scalar) (record : FileRecord) : Prop :=
  ∃ place : Nat, id.whole? = some (place : Int) ∧ base.records[place]? = some record

/-- The lookups of a base whose lines are numbered from `first` on. -/
def numberedFrom (base : FileBase) (first : Int) : Lookup :=
  { base.lookup with firstNumber := first }

theorem numberedFrom_one (base : FileBase) : base.numberedFrom 1 = base.lookup := rfl

variable {base : FileBase} {first : Int} {id other : Scalar} {record next : FileRecord}

theorem place?_eq (base : FileBase) (id : Scalar) :
    base.place? id = id.whole?.bind fun n =>
      if 0 ≤ n ∧ n < base.records.length then some n.toNat else none := by
  cases id <;> rfl

theorem get_eq_ok_iff : base.get id = .ok record ↔ base.Holds id record := by
  rw [get, place?_eq, Holds]
  cases number : id.whole? with
  | none => simp
  | some n =>
      by_cases inside : 0 ≤ n ∧ n < base.records.length
      · have place : n = (n.toNat : Int) := by omega
        simp only [Option.bind_some, if_pos inside, Option.some.injEq]
        cases found : base.records[n.toNat]? with
        | none =>
            constructor
            · intro ok
              cases ok
            · rintro ⟨m, same, held⟩
              rw [same, Int.toNat_natCast, held] at found
              cases found
        | some value =>
            constructor
            · intro ok
              cases ok
              exact ⟨n.toNat, place, found⟩
            · rintro ⟨m, same, held⟩
              rw [same, Int.toNat_natCast, held] at found
              cases found
              rfl
      · simp only [Option.bind_some, if_neg inside, Option.bind_none, Option.some.injEq]
        constructor
        · intro ok
          cases ok
        · rintro ⟨m, same, held⟩
          have bound := (List.getElem?_eq_some_iff.mp held).1
          omega

theorem get_of_not_holds (h : ∀ record, ¬ base.Holds id record) :
    base.get id = .error (.fileMissing id) := by
  cases found : base.get id with
  | ok record => exact absurd (get_eq_ok_iff.mp found) (h record)
  | error failure =>
      rw [get] at found
      split at found
      · cases found
      · exact found.symm

theorem Holds.unique (held : base.Holds id record) (again : base.Holds id next) :
    record = next := by
  have ok := get_eq_ok_iff.mpr held
  rw [get_eq_ok_iff.mpr again] at ok
  exact (Except.ok.inj ok).symm

theorem Holds.isSome_whole? (held : base.Holds id record) : id.whole?.isSome = true := by
  rcases held with ⟨place, number, _⟩
  rw [number]
  rfl

/-- Ids that count as numbers are the same if and only if they count as the same number. -/
theorem Holds.same_iff (held : base.Holds id record) (number : other.whole?.isSome = true) :
    id.same other = true ↔ id.whole? = other.whole? := by
  have known := held.isSome_whole?
  cases id with
  | bool b => cases other <;> simp_all [Scalar.same, Scalar.whole?]
  | int n => cases other <;> simp_all [Scalar.same, Scalar.whole?]
  | null => cases known
  | real x => cases known
  | text t => cases known
  | moment s => cases known

theorem Holds.of_same (held : base.Holds id record) (number : other.whole?.isSome = true)
    (same : id.same other = true) : base.Holds other record := by
  have numbers := (held.same_iff number).mp same
  rcases held with ⟨place, found, at_place⟩
  exact ⟨place, by rw [← numbers, found], at_place⟩

/-!
# Lookups of a known id
-/

theorem Holds.name_eq (held : base.Holds id record) :
    (base.numberedFrom first).name id = .ok record.name := by
  show (base.get id).map FileRecord.name = .ok record.name
  rw [get_eq_ok_iff.mpr held]
  rfl

theorem Holds.encoded_eq (held : base.Holds id record) :
    (base.numberedFrom first).encoded id = .ok record.encoded := by
  show (base.get id).map FileRecord.encoded = .ok record.encoded
  rw [get_eq_ok_iff.mpr held]
  rfl

theorem encoded_of_not_holds (h : ∀ record, ¬ base.Holds id record) :
    (base.numberedFrom first).encoded id = .error (.fileMissing id) := by
  show (base.get id).map FileRecord.encoded = .error (.fileMissing id)
  rw [get_of_not_holds h]
  rfl

theorem Holds.lineIndex_eq (held : base.Holds id record) (offset : Nat) :
    (base.numberedFrom first).lineIndex id offset = .ok (record.lineAt offset) := by
  show (base.get id).map (fun record => record.lineIndex offset) = .ok (record.lineAt offset)
  rw [get_eq_ok_iff.mpr held, ← record.lineIndex_natCast]
  rfl

theorem Holds.lineRange_eq (held : base.Holds id record) (line : Int) :
    (base.numberedFrom first).lineRange id line = record.lineRange line := by
  show (base.get id >>= fun record => record.lineRange line) = record.lineRange line
  rw [get_eq_ok_iff.mpr held]
  rfl

end FileBase

namespace FileRecord

/-- The location that lookups find for an offset, on lines numbered from `first` on. -/
def locationAt (record : FileRecord) (first : Int) (offset : Nat) : Location where
  lineNumber := first + record.lineAt offset
  columnNumber :=
    Slice.columnIndex record.encoded
      (record.startOf (record.lineAt offset), record.startOf (record.lineAt offset + 1)) offset + 1

end FileRecord

namespace FileBase

variable {base : FileBase} {first : Int} {id : Scalar} {record : FileRecord}

theorem Holds.location_eq (held : base.Holds id record) (offset : Nat) :
    (base.numberedFrom first).location id offset = .ok (record.locationAt first offset) := by
  have range := record.lineRange_of_lt (record.lineAt_lt_lineCount offset)
  simp only [Lookup.location, Lookup.columnNumber, held.lineIndex_eq, held.lineRange_eq,
    held.encoded_eq, range, bind, Except.bind, pure, Except.pure]
  rfl

theorem Holds.locus_eq (held : base.Holds id record) (offset : Nat) :
    (base.numberedFrom first).locus id offset =
      .ok ⟨record.name, record.locationAt first offset⟩ := by
  rw [Lookup.locus, held.name_eq, held.location_eq]
  rfl

end FileBase
end SourceReport

import SourceReport.Proofs.Columns
import SourceReport.Proofs.Placing

/-!
# Locations of offsets

An offset is located by the characters that end at or before it: its line number counts the newlines
among them, and its column number the characters after the last newline. So two offsets between
characters have two locations.
-/

namespace SourceReport
namespace FileRecord

open Utf8

/-- The location of an offset in terms of the characters that end at or before it. -/
theorem locationAt_eq (record : FileRecord) (first : Int) (offset : Nat) :
    record.locationAt first offset =
      { lineNumber := first + (passed record.source.toList offset).count '\n'
        columnNumber := 1 + (lastLine (passed record.source.toList offset)).length } := by
  have column := Slice.columnIndex_line record.source.toList offset
  rw [← record.encoded_eq] at column
  have line := Lines.lineAt_encode record.source.toList offset
  rw [← record.encoded_eq] at line
  rw [locationAt, lineAt, startOf, startOf, column, line, Int.add_comm _ 1]

theorem eq_of_locationAt_eq {record : FileRecord} {first : Int} {a b : Nat}
    (left : record.IsCut a) (right : record.IsCut b)
    (same : record.locationAt first a = record.locationAt first b) : a = b := by
  rcases left with ⟨front, back, whole, rfl⟩
  rcases right with ⟨start, rest, parts, rfl⟩
  rw [locationAt_eq, locationAt_eq] at same
  have before : passed record.source.toList (encode front).length = front := by
    rw [whole]
    exact passed_append front back
  have after : passed record.source.toList (encode start).length = start := by
    rw [parts]
    exact passed_append start rest
  rw [before, after] at same
  injection same with lines columns
  have prefixes := eq_of_position_eq whole parts (by omega) (by omega)
  rw [prefixes]

end FileRecord

/-!
# A file of symbols

Its characters take one to four bytes each.
-/

namespace Symbols

def record : FileRecord :=
  .of "symbols" "aé\nλ😀\n"

def base : FileBase :=
  ⟨[record]⟩

theorem held : base.Holds (.int 0) record :=
  ⟨0, rfl, rfl⟩

end Symbols

namespace FileBase

open Utf8

/-!
# Locations
-/

theorem location_exact (base : FileBase) {id : Scalar} {record : FileRecord}
    (held : base.Holds id record) :
    (∀ offset : Nat, base.lookup.location id offset =
      .ok {
        lineNumber := 1 + (passed record.source.toList offset).count '\n'
        columnNumber := 1 + (lastLine (passed record.source.toList offset)).length }) ∧
      ∀ a b : Nat, record.IsCut a → record.IsCut b →
        base.lookup.location id a = base.lookup.location id b → a = b := by
  have located : ∀ offset : Nat,
      base.lookup.location id offset = .ok (record.locationAt 1 offset) := by
    intro offset
    have found : (base.numberedFrom 1).location id offset = .ok (record.locationAt 1 offset) :=
      held.location_eq offset
    exact found
  constructor
  · intro offset
    rw [located, record.locationAt_eq]
  · intro a b left right same
    rw [located, located] at same
    exact FileRecord.eq_of_locationAt_eq left right (Except.ok.inj same)

/-- An offset inside a character, one past the end, and two offsets between characters. -/
theorem location_exact_symbols :
    Symbols.base.Holds (.int 0) Symbols.record ∧
      Symbols.base.lookup.location (.int 0) 8 = .ok ⟨2, 2⟩ ∧
      Symbols.base.lookup.location (.int 0) 50 = .ok ⟨3, 1⟩ ∧
      Symbols.base.lookup.location (.int 0) 4 ≠ Symbols.base.lookup.location (.int 0) 6 := by
  have exact := location_exact Symbols.base Symbols.held
  have before : Symbols.record.IsCut 4 := by decide +kernel
  have after : Symbols.record.IsCut 6 := by decide +kernel
  refine ⟨Symbols.held, exact.1 8, exact.1 50, ?_⟩
  intro same
  have equal := exact.2 4 6 before after same
  cases equal

end FileBase
end SourceReport

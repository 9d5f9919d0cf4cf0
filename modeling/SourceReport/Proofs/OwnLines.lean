import SourceReport.Proofs.Characters
import SourceReport.Proofs.Columns

/-!
# Offsets and their own lines

Whether an offset stands between two characters, and in which column it is located, is decided by
the line that it lies on. The lines above it only add to the offset, and the lines below it do not
matter.
-/

namespace SourceReport
namespace Utf8

/-!
# Offsets in a part of a text
-/

theorem isCut_append_right_iff (front back : List Char) (offset : Nat) :
    IsCut (front ++ back) ((encode front).length + offset) ↔ IsCut back offset := by
  induction front with
  | nil => rw [List.nil_append, encode_nil, List.length_nil, Nat.zero_add]
  | cons c front ih =>
      have length : (encode (c :: front)).length + offset - c.utf8Size =
          (encode front).length + offset := by
        rw [encode_cons, List.length_append, String.length_utf8EncodeChar]
        omega
      have reached : c.utf8Size ≤ (encode (c :: front)).length + offset := by
        rw [encode_cons, List.length_append, String.length_utf8EncodeChar]
        omega
      have positive := c.utf8Size_pos
      rw [List.cons_append, isCut_cons_iff, length, ih]
      constructor
      · rintro (zero | ⟨_, cut⟩)
        · omega
        · exact cut
      · intro cut
        exact Or.inr ⟨reached, cut⟩

theorem isCut_append_left_iff {front : List Char} (back : List Char) {offset : Nat}
    (inside : offset ≤ (encode front).length) :
    IsCut (front ++ back) offset ↔ IsCut front offset := by
  induction front generalizing offset with
  | nil =>
      have zero : offset = 0 := Nat.le_zero.mp inside
      subst zero
      exact ⟨fun _ => isCut_zero _, fun _ => isCut_zero _⟩
  | cons c front ih =>
      rw [encode_cons, List.length_append, String.length_utf8EncodeChar] at inside
      rw [List.cons_append, isCut_cons_iff, isCut_cons_iff, ih (by omega)]

theorem endedBy_append_left {front : List Char} (back : List Char) {offset : Nat}
    (inside : offset ≤ (encode front).length) :
    endedBy (front ++ back) offset = endedBy front offset := by
  induction front generalizing offset with
  | nil =>
      have zero : offset = 0 := Nat.le_zero.mp inside
      subst zero
      rw [endedBy_zero, endedBy_zero]
  | cons c front ih =>
      rw [encode_cons, List.length_append, String.length_utf8EncodeChar] at inside
      rw [List.cons_append, endedBy_cons, endedBy_cons, ih (by omega)]

end Utf8

namespace FileRecord

variable (record : FileRecord)

/-!
# Offsets on a line
-/

/-- The text of a line with what ends it. -/
def wholeLine (i : Nat) : List Char :=
  record.lineText i ++ record.ending i

/-- What ends a line is trimmed off. -/
theorem trimTrailing_wholeLine (i : Nat) :
    Line.trimTrailing (record.wholeLine i) = Line.trimTrailing (record.lineText i) := by
  rw [wholeLine, ending]
  split
  · exact Line.trimTrailing_concat_newline (record.lineText i)
  · rw [List.append_nil]

/-- The rows of a line are those of its text with what ends it. -/
theorem lineRows_eq_rows_wholeLine (options : Options) (first : Int) (labels : List Label)
    (i : Nat) :
    record.lineRows options first labels i =
      Line.rows options.tabWidth (first + i) (String.ofList (record.wholeLine i))
        (record.marksAt options first labels i) (record.columns options first labels)
        (record.entriesAt options first labels i) := by
  simp only [lineRows, Line.rows, String.toList_ofList, trimTrailing_wholeLine]

theorem length_encoded : record.encoded.length = record.startOf record.lineCount := by
  rw [startOf, ← length_withEnds, Lines.startOf_length, record.encoded_eq]

/-- The offset lies on its line, or at the end of the source. -/
theorem le_startOf_succ {offset : Nat} (inside : offset ≤ record.encoded.length) :
    offset ≤ record.startOf (record.lineAt offset + 1) := by
  have last := record.lineAt_lt_lineCount offset
  by_cases more : record.lineAt offset + 1 < record.lineCount
  · have next := record.startOf_le_iff more offset
    omega
  · have ends : record.lineAt offset + 1 = record.lineCount := by omega
    rw [ends, ← length_encoded]
    exact inside

theorem startOf_lineAt_le (offset : Nat) : record.startOf (record.lineAt offset) ≤ offset :=
  (record.startOf_le_iff (record.lineAt_lt_lineCount offset) offset).mpr (Nat.le_refl _)

/-- An offset is a place on its line: the start of the line, and a number of bytes after it. -/
theorem exists_eq_startOf_add {offset : Nat} (inside : offset ≤ record.encoded.length) :
    ∃ reach, offset = record.startOf (record.lineAt offset) + reach ∧
      record.startOf (record.lineAt offset) + reach ≤
        record.startOf (record.lineAt offset + 1) := by
  have start := record.startOf_lineAt_le offset
  have stop := record.le_startOf_succ inside
  exact ⟨offset - record.startOf (record.lineAt offset), by omega, by omega⟩

theorem slice_wholeLine {i : Nat} (h : i < record.lineCount) :
    Slice.slice record.encoded (record.startOf i) (record.startOf (i + 1)) =
      .ok (String.ofList (record.wholeLine i)) := by
  rw [record.slice_line (record.getElem?_splitLines h), wholeLine, ending]
  split
  · rfl
  · rw [List.append_nil]

/-- Whether an offset on a line stands between two characters is a matter of the line. -/
theorem isCut_startOf_add_iff {i reach : Nat} (h : i < record.lineCount)
    (inside : record.startOf i + reach ≤ record.startOf (i + 1)) :
    record.IsCut (record.startOf i + reach) ↔ Utf8.IsCut (record.wholeLine i) reach := by
  rcases record.exists_eq_around h with ⟨front, back, source, first, next⟩
  rw [Utf8.encode_append, List.length_append, first] at next
  have within : reach ≤ (Utf8.encode (record.wholeLine i)).length := by
    rw [wholeLine]
    omega
  rw [IsCut, source, List.append_assoc, ← first, Utf8.isCut_append_right_iff, ← wholeLine,
    Utf8.isCut_append_left_iff back within]

/-- What stands between two characters of the source stands between two characters of its line. -/
theorem exists_cut_of_isCut {offset : Nat} (cut : record.IsCut offset) :
    ∃ reach : Nat, offset = record.startOf (record.lineAt offset) + reach ∧
      Utf8.IsCut (record.wholeLine (record.lineAt offset)) reach := by
  have inside := cut.le_length
  rw [← record.encoded_eq] at inside
  rcases record.exists_eq_startOf_add inside with ⟨reach, start, within⟩
  refine ⟨reach, start, ?_⟩
  have split := record.isCut_startOf_add_iff (record.lineAt_lt_lineCount offset) within
  rw [start] at cut
  exact split.mp cut

/-- A label that fits starts between two characters of its line. -/
theorem exists_cut_on_line {label : Label} (fits : label.FitsIn record) :
    ∃ reach : Nat, label.start = record.startOf (record.lineAt label.start) + reach ∧
      Utf8.IsCut (record.wholeLine (record.lineAt label.start)) reach :=
  record.exists_cut_of_isCut fits.2.1

/-- The column of an offset on a line counts the characters of the line that end before it. -/
theorem columnIndex_startOf_add {i reach : Nat} (h : i < record.lineCount)
    (inside : record.startOf i + reach ≤ record.startOf (i + 1)) :
    Slice.columnIndex record.encoded (record.startOf i, record.startOf (i + 1))
        (record.startOf i + reach : Nat) =
      Utf8.endedBy (record.wholeLine i) reach := by
  rcases record.exists_eq_around h with ⟨front, back, source, first, next⟩
  have total := congrArg (fun text => (Utf8.encode text).length) source
  simp only [Utf8.encode_append, List.length_append] at total
  rw [Utf8.encode_append, List.length_append, first] at next
  rw [Utf8.encode_append, List.length_append] at next
  have within : reach ≤ (Utf8.encode (record.wholeLine i)).length := by
    rw [wholeLine, Utf8.encode_append, List.length_append]
    omega
  have column := Slice.columnIndex_encode front (record.lineText i ++ record.ending i ++ back)
    (record.startOf (i + 1)) (record.startOf i + reach)
  rw [← List.append_assoc, ← source, ← record.encoded_eq, first] at column
  have reached : min (record.startOf i + reach)
      (min (record.startOf (i + 1)) record.encoded.length) - record.startOf i = reach := by
    rw [record.encoded_eq, total]
    omega
  rw [column, reached, ← wholeLine, Utf8.endedBy_append_left back within]

end FileRecord
end SourceReport

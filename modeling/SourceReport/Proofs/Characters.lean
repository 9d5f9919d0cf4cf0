import SourceReport.Proofs.Snippets

/-!
# Characters of a line

A character that is drawn on a line occupies bytes of that line, and no offset between characters
falls inside it. So a valid label covers it as a whole or not at all.
-/

namespace SourceReport

/-!
# Characters and offsets
-/

theorem Utf8.IsCut.le_or_le {front back : List Char} {c : Char} {offset : Nat}
    (cut : IsCut (front ++ c :: back) offset) :
    offset ≤ (encode front).length ∨ (encode front).length + c.utf8Size ≤ offset := by
  rcases cut with ⟨start, rest, parts, rfl⟩
  have whole : front ++ [c] ++ back = front ++ c :: back := by simp
  have length : (encode (front ++ [c])).length = (encode front).length + c.utf8Size := by simp
  rcases List.prefix_or_prefix_of_prefix ⟨rest, parts.symm⟩ ⟨back, whole⟩ with inside | beyond
  · rcases List.prefix_concat_iff.mp inside with this | ⟨between, before⟩
    · rw [this, length]
      exact Or.inr (Nat.le_refl _)
    · rw [← before, encode_append, List.length_append]
      exact Or.inl (Nat.le_add_right _ _)
  · rcases beyond with ⟨between, after⟩
    rw [← after, encode_append, List.length_append, length]
    exact Or.inr (Nat.le_add_right _ _)

namespace Line

open Utf8

theorem exists_eq_trimTrailing_append (line : List Char) :
    ∃ ending, line = trimTrailing line ++ ending := by
  refine ⟨(line.reverse.takeWhile isTrailing).reverse, ?_⟩
  rw [trimTrailing, ← List.reverse_append, List.takeWhile_append_dropWhile, List.reverse_reverse]

/-- A placed character stands behind the bytes of the characters before it. -/
theorem exists_of_mem_placeFrom {tabWidth byteIndex column : Nat} {line : List Char}
    {placed : PlacedChar} (h : placed ∈ placeFrom tabWidth byteIndex column line) :
    ∃ front back, line = front ++ placed.char :: back ∧
      placed.byteIndex = byteIndex + (encode front).length ∧
      placed.byteLength = placed.char.utf8Size := by
  induction line generalizing byteIndex column with
  | nil => cases h
  | cons c rest ih =>
      rcases List.mem_cons.mp h with this | later
      · rw [this]
        exact ⟨[], rest, rfl, rfl, rfl⟩
      · rcases ih later with ⟨front, back, parts, index, length⟩
        refine ⟨c :: front, back, ?_, ?_, length⟩
        · rw [parts, List.cons_append]
        · rw [index, encode_cons, List.length_append, String.length_utf8EncodeChar, Nat.add_assoc]

end Line

namespace FileRecord

variable (record : FileRecord)

/-!
# The bytes of a line
-/

theorem startOf_le_iff {i : Nat} (h : i < record.lineCount) (offset : Nat) :
    record.startOf i ≤ offset ↔ i ≤ record.lineAt offset := by
  rw [← length_withEnds] at h
  rw [startOf, lineAt, record.encoded_eq]
  exact Lines.startOf_le_iff record.source.toList h offset

/-- What ends a line: a newline, unless the line is the last one. -/
def ending (i : Nat) : List Char :=
  if i + 1 < record.lineCount then ['\n'] else []

/-- The source around a line, with what ends the line. -/
theorem exists_eq_around {i : Nat} (h : i < record.lineCount) :
    ∃ front back, record.source.toList = front ++ (record.lineText i ++ record.ending i) ++ back ∧
      (Utf8.encode front).length = record.startOf i ∧
      (Utf8.encode (front ++ (record.lineText i ++ record.ending i))).length =
        record.startOf (i + 1) := by
  have found : (Lines.withEnds record.source.toList)[i]? =
      some (record.lineText i ++ record.ending i) := by
    have count : (splitLines record.source.toList).length = record.lineCount :=
      length_pieces '\n' record.source.toList
    rw [Lines.withEnds, Lines.getElem?_addEnds, record.getElem?_splitLines h,
      Option.map_some, count, ending]
    split
    · rfl
    · rw [List.append_nil]
  refine ⟨_, _, Lines.text_eq_around record.source.toList found, rfl, ?_⟩
  rw [startOf, Lines.startOf, List.take_add_one, found, Option.toList_some, List.flatten_append,
    List.flatten_singleton]

/-!
# Characters on a line
-/

/-- The bytes from `low` to `high` hold one character of line `i`. -/
structure HasCharAt (i low high : Nat) : Prop where
  nonempty : low < high
  first_le : record.startOf i ≤ low
  le_next : high ≤ record.startOf (i + 1)
  whole : ∀ offset, record.IsCut offset → offset ≤ low ∨ high ≤ offset

variable {record}

/-- Every character that is drawn on a line is a character of that line. -/
theorem hasCharAt_of_mem_place {i tabWidth : Nat} (h : i < record.lineCount) {placed : PlacedChar}
    (member : placed ∈ Line.place tabWidth (Line.trimTrailing (record.lineText i))) :
    record.HasCharAt i (record.startOf i + placed.byteIndex)
      (record.startOf i + placed.byteIndex + placed.byteLength) := by
  rcases record.exists_eq_around h with ⟨before, after, source, first, next⟩
  rcases Line.exists_eq_trimTrailing_append (record.lineText i) with ⟨trailing, text⟩
  rcases Line.exists_of_mem_placeFrom member with ⟨front, back, line, index, length⟩
  rw [Nat.zero_add] at index
  have parts : record.lineText i ++ record.ending i =
      front ++ placed.char :: (back ++ (trailing ++ record.ending i)) := by
    rw [text, line]
    simp
  have reach : (Utf8.encode (before ++ front)).length = record.startOf i + placed.byteIndex := by
    rw [Utf8.encode_append, List.length_append, first, index]
  have total := next
  rw [parts, ← List.append_assoc, Utf8.encode_append, List.length_append, reach,
    Utf8.encode_cons, List.length_append, String.length_utf8EncodeChar] at total
  constructor
  · have positive := placed.char.utf8Size_pos
    omega
  · exact Nat.le_add_right _ _
  · omega
  · intro offset cut
    rw [IsCut, source, parts, ← List.append_assoc, List.append_assoc (before ++ front),
      List.cons_append] at cut
    have sides := cut.le_or_le
    rw [reach] at sides
    omega

namespace HasCharAt

variable {i low high offset : Nat}

/-- Offsets on earlier lines come before the character. -/
theorem lt_of_lineAt_lt (char : record.HasCharAt i low high) (h : i < record.lineCount)
    (above : record.lineAt offset < i) : offset < low := by
  have reached := record.startOf_le_iff h offset
  have first := char.first_le
  omega

/-- Offsets on later lines come after the character. -/
theorem le_of_lt_lineAt (char : record.HasCharAt i low high) (below : i < record.lineAt offset) :
    high ≤ offset := by
  have inside := record.lineAt_lt_lineCount offset
  have reached := record.startOf_le_iff (i := i + 1) (by omega) offset
  have next := char.le_next
  omega

end HasCharAt
end FileRecord
end SourceReport

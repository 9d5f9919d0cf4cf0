import SourceReport.Proofs.OwnLines
import SourceReport.Proofs.RaisedFailures

/-!
# Tilings of a source

The lines of a source are consecutive ranges of its bytes, from the first byte to the last. Each one
but the last ends with a newline byte, and no other byte in it is one. So an offset lies on the line
whose range holds it, and an offset behind all ranges lies on the last line.
-/

namespace SourceReport

/-!
# Lines without newlines
-/

/-- No piece of a text has a mark in it. -/
theorem not_mem_of_mem_pieces {α : Type} [DecidableEq α] {mark : α} {text piece : List α}
    (h : piece ∈ pieces mark text) : mark ∉ piece := by
  induction text generalizing piece with
  | nil =>
      rw [List.mem_singleton.mp h]
      exact List.not_mem_nil
  | cons c rest ih =>
      rw [pieces] at h
      split at h
      · rcases List.mem_cons.mp h with empty | later
        · rw [empty]
          exact List.not_mem_nil
        · exact ih later
      · rename_i other
        cases found : pieces mark rest with
        | nil => exact absurd found (pieces_ne_nil mark rest)
        | cons head more =>
            rw [found] at h ih
            rcases List.mem_cons.mp h with this | later
            · rw [this, List.mem_cons, not_or]
              exact ⟨Ne.symm other, ih List.mem_cons_self⟩
            · exact ih (List.mem_cons_of_mem head later)

/-- The newline byte stands only where the text has a newline. -/
theorem Utf8.newline_not_mem_encode {text : List Char} (h : '\n' ∉ text) :
    Lines.newline ∉ encode text := by
  rw [← List.count_eq_zero, count_newline_encode, List.count_eq_zero]
  exact h

namespace FileRecord

variable (record : FileRecord)

theorem newline_not_mem_lineText (i : Nat) : '\n' ∉ record.lineText i := by
  by_cases inside : i < record.lineCount
  · exact not_mem_of_mem_pieces (List.mem_of_getElem? (record.getElem?_splitLines inside))
  · have none : (splitLines record.source.toList)[i]? = none := by
      have count : (splitLines record.source.toList).length = record.lineCount :=
        length_pieces '\n' record.source.toList
      rw [List.getElem?_eq_none_iff]
      omega
    rw [lineText, List.getD_eq_getElem?_getD, none]
    exact List.not_mem_nil

/-!
# The bytes of a line
-/

/-- The bytes of the source in a range. -/
def bytesIn (start stop : Nat) : List UInt8 :=
  (record.encoded.take stop).drop start

theorem bytesIn_line {i : Nat} (h : i < record.lineCount) :
    record.bytesIn (record.startOf i) (record.startOf (i + 1)) =
      Utf8.encode (record.wholeLine i) := by
  rcases record.exists_eq_around h with ⟨front, back, source, start, stop⟩
  rw [bytesIn, record.encoded_eq, source, ← start, ← stop, Utf8.encode_append _ back, List.take_left,
    Utf8.encode_append, List.drop_left, wholeLine]

theorem startOf_le_succ {i : Nat} (h : i < record.lineCount) :
    record.startOf i ≤ record.startOf (i + 1) := by
  rcases record.exists_eq_around h with ⟨front, back, source, start, stop⟩
  rw [← start, ← stop, Utf8.encode_append, List.length_append]
  exact Nat.le_add_right _ _

/-- Every line but the last ends with its only newline byte. -/
theorem bytesIn_ended {i : Nat} (h : i + 1 < record.lineCount) :
    record.bytesIn (record.startOf i) (record.startOf (i + 1)) =
      Utf8.encode (record.lineText i) ++ [Lines.newline] := by
  have ends : Utf8.encode (record.ending i) = [Lines.newline] := by
    rw [ending, if_pos h, Utf8.encode_cons, Utf8.encodeChar_newline]
    rfl
  rw [record.bytesIn_line (Nat.lt_of_succ_lt h), wholeLine, Utf8.encode_append, ends]

/-- Every line but the last takes at least the byte that ends it. -/
theorem startOf_lt_succ {i : Nat} (h : i + 1 < record.lineCount) :
    record.startOf i < record.startOf (i + 1) := by
  have ends := congrArg List.length (record.bytesIn_ended h)
  rw [bytesIn, List.length_drop, List.length_append, List.length_singleton] at ends
  have below := List.length_take_le (record.startOf (i + 1)) record.encoded
  omega

theorem bytesIn_last {i : Nat} (h : i + 1 = record.lineCount) :
    record.bytesIn (record.startOf i) (record.startOf (i + 1)) =
      Utf8.encode (record.lineText i) := by
  have inside : i < record.lineCount := by omega
  have open_end : record.ending i = [] := if_neg (by omega)
  rw [record.bytesIn_line inside, wholeLine, open_end, List.append_nil]

/-!
# The range of an offset
-/

/-- The range of a line holds an offset. -/
def RangeHolds (i offset : Nat) : Prop :=
  ∃ start stop : Nat, record.lineRange i = .ok ((start : Int), (stop : Int)) ∧
    start ≤ offset ∧ offset < stop

/-- Behind the last line there are no ranges. The line just behind it starts at the end of the
source, so it is the line after that one which is refused. -/
theorem lineRange_beyond {i : Nat} (h : record.lineCount ≤ i) :
    record.lineRange i =
      .error (.lineTooLarge (max i (record.lineCount + 1) : Nat) record.lineCount) := by
  have next : ((i : Int) + 1) = (i + 1 : Nat) := by omega
  rcases Nat.eq_or_lt_of_le h with ends | beyond
  · have refused := record.lineStart_of_lt (Nat.lt_succ_of_le h)
    have given : max i (record.lineCount + 1) = i + 1 := by omega
    rw [lineRange, record.lineStart_of_le (Nat.le_of_eq ends.symm), next, refused, given]
    rfl
  · have given : max i (record.lineCount + 1) = i := by omega
    rw [lineRange, record.lineStart_of_lt beyond, given]
    rfl

/-- The line behind the last one that is asked for is told about, if it can be written. -/
theorem raising_lineRange_beyond {i : Nat} (h : record.lineCount ≤ i) :
    raising (record.lineRange i) = .error (
      if Digits.isWritable (max i (record.lineCount + 1) : Nat) then
        .failure (.lineTooLarge (max i (record.lineCount + 1) : Nat) record.lineCount)
      else .fault .longNumber) := by
  have within : record.lineCount ≤ max i (record.lineCount + 1) := by omega
  rw [raising, record.lineRange_beyond h, Except.mapError, Failure.raised,
    Failure.isWritable_lineTooLarge within]

theorem rangeHolds_iff (i offset : Nat) :
    record.RangeHolds i offset ↔
      i < record.lineCount ∧ record.startOf i ≤ offset ∧ offset < record.startOf (i + 1) := by
  constructor
  · intro holds
    rcases holds with ⟨start, stop, range, reached, inside⟩
    by_cases known : i < record.lineCount
    · rw [record.lineRange_of_lt known] at range
      injection range with pair
      rw [Prod.mk.injEq, Int.natCast_inj, Int.natCast_inj] at pair
      rw [pair.1, pair.2]
      exact ⟨known, reached, inside⟩
    · rw [record.lineRange_beyond (Nat.le_of_not_lt known)] at range
      cases range
  · intro bounds
    rcases bounds with ⟨known, reached, inside⟩
    exact ⟨_, _, record.lineRange_of_lt known, reached, inside⟩

/-- An offset lies on the line whose range holds it, or on the last one if it lies behind that. -/
theorem lineIndex_eq_iff (offset i : Nat) :
    record.lineIndex offset = i ↔
      record.RangeHolds i offset ∨ (i + 1 = record.lineCount ∧ record.startOf i ≤ offset) := by
  have inside := record.lineAt_lt_lineCount offset
  rw [record.lineIndex_natCast, record.rangeHolds_iff]
  constructor
  · intro same
    subst same
    have reached := record.startOf_lineAt_le offset
    by_cases more : record.lineAt offset + 1 < record.lineCount
    · have next := record.startOf_le_iff more offset
      exact Or.inl ⟨inside, reached, by omega⟩
    · exact Or.inr ⟨by omega, reached⟩
  · intro holds
    rcases holds with ⟨known, reached, below⟩ | ⟨last, reached⟩
    · have above := (record.startOf_le_iff known offset).mp reached
      by_cases more : i + 1 < record.lineCount
      · have next := record.startOf_le_iff more offset
        omega
      · omega
    · have known : i < record.lineCount := by omega
      have above := (record.startOf_le_iff known offset).mp reached
      omega

/-!
# The lines of a source
-/

/-- The lines of a source as ranges of its bytes: where they start, what they hold, what is raised
for the lines behind them, and which of them an offset lies on. -/
structure IsTiledBy (count : Nat) (start : Nat → Nat) : Prop where
  start_zero : start 0 = 0
  start_count : start count = record.encoded.length
  start_le : ∀ i < count, start i ≤ start (i + 1)
  lineRange_eq : ∀ i < count, record.lineRange i = .ok ((start i : Int), (start (i + 1) : Int))
  ended : ∀ i, i + 1 < count → ∃ bytes, Lines.newline ∉ bytes ∧
    record.bytesIn (start i) (start (i + 1)) = bytes ++ [Lines.newline]
  last : ∀ i, i + 1 = count → Lines.newline ∉ record.bytesIn (start i) (start (i + 1))
  beyond : ∀ i : Nat, count ≤ i → raising (record.lineRange i) = .error (
    if Digits.isWritable (max i (count + 1) : Nat) then
      .failure (.lineTooLarge (max i (count + 1) : Nat) count)
    else .fault .longNumber)
  lineIndex_iff : ∀ offset i : Nat, record.lineIndex offset = i ↔
    record.RangeHolds i offset ∨ (i + 1 = count ∧ start i ≤ offset)
  lineIndex_start : ∀ i < count, record.lineIndex (start i) = i

/-- Every source is tiled by its lines, one more than it has newlines. -/
theorem tiled_by_lines (record : FileRecord) :
    ∃ start, record.IsTiledBy (record.source.toList.count '\n' + 1) start := by
  refine ⟨record.startOf, ?_⟩
  show record.IsTiledBy record.lineCount record.startOf
  constructor
  · exact Lines.startOf_zero record.source.toList
  · exact record.length_encoded.symm
  · exact fun i inside => record.startOf_le_succ inside
  · exact fun i inside => record.lineRange_of_lt inside
  · intro i more
    exact ⟨_, Utf8.newline_not_mem_encode (record.newline_not_mem_lineText i),
      record.bytesIn_ended more⟩
  · intro i last
    rw [record.bytesIn_last last]
    exact Utf8.newline_not_mem_encode (record.newline_not_mem_lineText i)
  · exact fun i outside => record.raising_lineRange_beyond outside
  · exact record.lineIndex_eq_iff
  · intro i inside
    rw [record.lineIndex_eq_iff]
    by_cases more : i + 1 < record.lineCount
    · have holds := (record.rangeHolds_iff i (record.startOf i)).mpr
        ⟨inside, Nat.le_refl _, record.startOf_lt_succ more⟩
      exact Or.inl holds
    · exact Or.inr ⟨by omega, Nat.le_refl _⟩

/-- The first line behind a source is told about as the line after it, and a line whose number is too
long is not told about. -/
theorem beyond_lines_letters :
    raising ((of "letters" "x").lineRange 1) = .error (.failure (.lineTooLarge 2 1)) ∧
      raising ((of "letters" "x").lineRange (Nat.pow 10 Digits.limit)) =
        .error (.fault .longNumber) := by
  refine ⟨by decide, ?_⟩
  have count : (of "letters" "x").lineCount = 1 := by decide
  have least : 2 < Nat.pow 10 Digits.limit := Digits.lt_pow_limit (by decide)
  have given : max (Nat.pow 10 Digits.limit) 2 = Nat.pow 10 Digits.limit :=
    Nat.max_eq_left (Nat.le_of_lt least)
  have beyond : (of "letters" "x").lineCount ≤ Nat.pow 10 Digits.limit := by
    rw [count]
    exact Nat.le_of_lt (Nat.lt_of_succ_lt least)
  rw [raising_lineRange_beyond _ beyond, count, given, Digits.isWritable_pow_limit]
  rfl

end FileRecord
end SourceReport

import SourceReport.Proofs.OwnLines
import SourceReport.Proofs.RaisedFailures

/-!
# Slices of a text

The offsets that stand between two characters are the lengths of the beginnings of a text. Between
two of them lies a piece of the text, and it is read from the bytes as it is. Any other range is
refused, for its length first and then for the first of its ends that stands between no two
characters. An end that is told about may have too many digits for that.
-/

namespace SourceReport
namespace Utf8

/-!
# Offsets of any sign
-/

/-- A whole number that is the length of the encoding of some beginning of the text. -/
def IsCutAt (text : List Char) (offset : Int) : Prop :=
  ∃ front, front <+: text ∧ ((encode front).length : Int) = offset

theorem isCutAt_natCast (text : List Char) (offset : Nat) :
    IsCutAt text offset ↔ IsCut text offset := by
  constructor
  · intro cut
    rcases cut with ⟨front, ⟨back, parts⟩, length⟩
    exact ⟨front, back, parts.symm, Int.natCast_inj.mp length⟩
  · intro cut
    rcases cut with ⟨front, back, parts, length⟩
    exact ⟨front, ⟨back, parts.symm⟩, Int.natCast_inj.mpr length⟩

theorem IsCutAt.le_length {text : List Char} {offset : Int} (cut : IsCutAt text offset) :
    offset ≤ (encode text).length := by
  rcases cut with ⟨front, ⟨back, rfl⟩, rfl⟩
  rw [encode_append, List.length_append]
  omega

/-- Two offsets between characters cut a text into three pieces. -/
theorem IsCutAt.exists_pieces {text : List Char} {start stop : Int} (first : IsCutAt text start)
    (last : IsCutAt text stop) (order : start ≤ stop) :
    ∃ front piece back, text = front ++ piece ++ back ∧ start = (encode front).length ∧
      stop = (encode (front ++ piece)).length := by
  rcases last with ⟨whole, ⟨back, rfl⟩, rfl⟩
  rcases first with ⟨front, before, rfl⟩
  have cut : IsCut (whole ++ back) (encode front).length :=
    (isCutAt_natCast _ _).mp ⟨front, before, rfl⟩
  rcases (isCut_append_left_iff back (Int.ofNat_le.mp order)).mp cut with
    ⟨other, piece, rfl, length⟩
  exact ⟨other, piece, back, rfl, congrArg Nat.cast length.symm, rfl⟩

end Utf8

namespace Slice

open Utf8

theorem isBoundary_iff_isCutAt (text : List Char) (offset : Int) :
    isBoundary (encode text) offset = true ↔ IsCutAt text offset := by
  cases offset with
  | ofNat n => exact (isBoundary_encode_iff text n).trans (isCutAt_natCast text n).symm
  | negSucc n =>
      have negative : ¬ (Int.negSucc n = (encode text).length) := by omega
      have below : ¬ (0 ≤ Int.negSucc n) := by omega
      constructor
      · intro boundary
        rw [isBoundary, decide_eq_false negative, decide_eq_false below] at boundary
        cases boundary
      · intro cut
        rcases cut with ⟨front, _, length⟩
        omega

instance (text : List Char) (offset : Int) : Decidable (IsCutAt text offset) :=
  decidable_of_iff _ (isBoundary_iff_isCutAt text offset)

/-!
# Ranges that are checked
-/

section Checks

variable {text : List Char} {start stop : Int}

theorem isBoundary_eq_false_of_not_isCutAt {offset : Int} (h : ¬ IsCutAt text offset) :
    isBoundary (encode text) offset = false := by
  rw [Bool.eq_false_iff, ne_eq, isBoundary_iff_isCutAt]
  exact h

theorem checkRange_beyond {bytes : List UInt8}
    (beyond : (bytes.length : Int) < start ∨ (bytes.length : Int) < stop) :
    checkRange bytes start stop =
      .error (.indexTooLarge (max start stop) (max (bytes.length - 1) 0)) :=
  if_pos beyond

theorem checkRange_bad_start (within : start ≤ (encode text).length ∧ stop ≤ (encode text).length)
    (bad : ¬ IsCutAt text start) :
    checkRange (encode text) start stop = .error (.invalidCharBoundary start) := by
  have short : ¬ (((encode text).length : Int) < start ∨ ((encode text).length : Int) < stop) := by
    omega
  rw [checkRange, if_neg short, isBoundary_eq_false_of_not_isCutAt bad]
  rfl

theorem checkRange_bad_stop (within : start ≤ (encode text).length ∧ stop ≤ (encode text).length)
    (good : IsCutAt text start) (bad : ¬ IsCutAt text stop) :
    checkRange (encode text) start stop = .error (.invalidCharBoundary stop) := by
  have short : ¬ (((encode text).length : Int) < start ∨ ((encode text).length : Int) < stop) := by
    omega
  rw [checkRange, if_neg short, (isBoundary_iff_isCutAt text start).mpr good,
    isBoundary_eq_false_of_not_isCutAt bad]
  rfl

theorem slice_of_checkRange {bytes : List UInt8} {failure : Failure}
    (refused : checkRange bytes start stop = .error failure) :
    slice bytes start stop = .error failure := by
  rw [slice, refused]

end Checks

/-!
# What a range yields
-/

/-- A range that is read as text, with what is raised for a refused one. -/
def read (bytes : List UInt8) (start stop : Int) : Except Raised String :=
  raising (slice bytes start stop)

/-- What is read from the bytes of a text between two offsets: the piece between two beginnings of
the text, nothing if the first one is the longer, or what is raised for the reason why there is
none. -/
inductive Yields (text : List Char) (start stop : Int) : Except Raised String → Prop
  | piece {front piece back : List Char} (parts : text = front ++ piece ++ back)
      (starts : start = (encode front).length) (stops : stop = (encode (front ++ piece)).length) :
      Yields text start stop (.ok (String.ofList piece))
  | reversed (order : stop < start) (first : IsCutAt text start) (last : IsCutAt text stop) :
      Yields text start stop (.ok "")
  | beyond (far : ((encode text).length : Int) < start ∨ ((encode text).length : Int) < stop) :
      Yields text start stop
        (.error (Failure.indexTooLarge (max start stop) (max ((encode text).length - 1) 0)).raised)
  | badStart (within : start ≤ (encode text).length ∧ stop ≤ (encode text).length)
      (bad : ¬ IsCutAt text start) :
      Yields text start stop (.error (Failure.invalidCharBoundary start).raised)
  | badStop (within : start ≤ (encode text).length ∧ stop ≤ (encode text).length)
      (good : IsCutAt text start) (bad : ¬ IsCutAt text stop) :
      Yields text start stop (.error (Failure.invalidCharBoundary stop).raised)

variable {text : List Char} {start stop : Int} {result : Except Raised String}

/-- Between two beginnings of a text, in the wrong order, there is nothing. -/
theorem slice_reversed (order : stop < start) (first : IsCutAt text start)
    (last : IsCutAt text stop) : slice (encode text) start stop = .ok "" := by
  have short : ¬ (((encode text).length : Int) < start ∨ ((encode text).length : Int) < stop) := by
    have reached := first.le_length
    omega
  have checked : checkRange (encode text) start stop = .ok () := by
    rw [checkRange, if_neg short, (isBoundary_iff_isCutAt text start).mpr first,
      (isBoundary_iff_isCutAt text stop).mpr last]
    rfl
  have none : (stop - start).toNat = 0 := by omega
  rw [slice, checked, none]
  rfl

theorem Yields.read_eq (yields : Yields text start stop result) :
    read (encode text) start stop = result := by
  rw [read]
  cases yields with
  | piece parts starts stops =>
      rw [parts, starts, stops, slice_encode]
      rfl
  | reversed order first last =>
      rw [slice_reversed order first last]
      rfl
  | beyond far =>
      rw [slice_of_checkRange (checkRange_beyond far)]
      rfl
  | badStart within bad =>
      rw [slice_of_checkRange (checkRange_bad_start within bad)]
      rfl
  | badStop within good bad =>
      rw [slice_of_checkRange (checkRange_bad_stop within good bad)]
      rfl

/-- Every range yields something. -/
theorem exists_yields (text : List Char) (start stop : Int) :
    ∃ result, Yields text start stop result := by
  by_cases far : ((encode text).length : Int) < start ∨ ((encode text).length : Int) < stop
  · exact ⟨_, .beyond far⟩
  · have within : start ≤ (encode text).length ∧ stop ≤ (encode text).length := by omega
    by_cases first : IsCutAt text start
    · by_cases last : IsCutAt text stop
      · rcases Int.lt_or_le stop start with reversed | order
        · exact ⟨_, .reversed reversed first last⟩
        · rcases first.exists_pieces last order with ⟨front, piece, back, parts, starts, stops⟩
          exact ⟨_, .piece parts starts stops⟩
      · exact ⟨_, .badStop within first last⟩
    · exact ⟨_, .badStart within first⟩

theorem read_eq_iff (text : List Char) (start stop : Int) :
    read (encode text) start stop = result ↔ Yields text start stop result := by
  constructor
  · intro same
    rcases exists_yields text start stop with ⟨other, yields⟩
    rw [← same, yields.read_eq]
    exact yields
  · exact Yields.read_eq

/-!
# Pieces of a text
-/

/-- A piece that is read in order lies between two beginnings of the text. -/
theorem exists_pieces_of_read (order : start ≤ stop) {piece : String}
    (found : read (encode text) start stop = .ok piece) :
    ∃ front back, text = front ++ piece.toList ++ back ∧ start = (encode front).length ∧
      stop = (encode (front ++ piece.toList)).length := by
  cases (read_eq_iff text start stop).mp found with
  | @piece front middle back parts starts stops =>
      rw [String.toList_ofList]
      exact ⟨front, back, parts, starts, stops⟩
  | reversed reversed => omega

theorem exists_read_eq_ok_iff (text : List Char) (start stop : Int) :
    (∃ piece, read (encode text) start stop = .ok piece) ↔
      IsCutAt text start ∧ IsCutAt text stop := by
  constructor
  · rintro ⟨_, found⟩
    cases (read_eq_iff text start stop).mp found with
    | @piece front piece back parts starts stops =>
        rw [starts, stops, isCutAt_natCast, isCutAt_natCast, parts]
        refine ⟨?_, isCut_append (front ++ piece) back⟩
        rw [List.append_assoc]
        exact isCut_append front (piece ++ back)
    | reversed _ first last => exact ⟨first, last⟩
  · rintro ⟨first, last⟩
    rcases Int.lt_or_le stop start with reversed | order
    · exact ⟨_, Yields.read_eq (.reversed reversed first last)⟩
    · rcases first.exists_pieces last order with ⟨front, piece, back, parts, starts, stops⟩
      exact ⟨_, Yields.read_eq (.piece parts starts stops)⟩

theorem encode_of_read_eq_ok {piece : String}
    (found : read (encode text) start stop = .ok piece) :
    encode piece.toList = ((encode text).take stop.toNat).drop start.toNat := by
  rcases Int.lt_or_le stop start with reversed | order
  · have cuts := (exists_read_eq_ok_iff text start stop).mp ⟨piece, found⟩
    rw [(Yields.reversed reversed cuts.1 cuts.2).read_eq] at found
    cases found
    have short : (((encode text).take stop.toNat).length) ≤ start.toNat := by
      rw [List.length_take]
      omega
    rw [List.drop_eq_nil_of_le short]
    rfl
  · rcases exists_pieces_of_read order found with ⟨front, back, parts, starts, stops⟩
    rw [starts, stops, Int.toNat_natCast, Int.toNat_natCast, parts, encode_append _ back,
      List.take_left, encode_append, List.drop_left]

/-- Two pieces of which the second one begins where the first one ends are one piece. -/
theorem read_append {middle : Int} {piece next : String} (first : start ≤ middle)
    (second : middle ≤ stop) (left : read (encode text) start middle = .ok piece)
    (right : read (encode text) middle stop = .ok next) :
    read (encode text) start stop = .ok (piece ++ next) := by
  rcases exists_pieces_of_read first left with ⟨front, rest, parts, starts, ends⟩
  rcases exists_pieces_of_read second right with ⟨before, back, others, begins, stops⟩
  have same : front ++ piece.toList = before := by
    have reached : (encode (front ++ piece.toList)).length = (encode before).length :=
      Int.natCast_inj.mp (ends.symm.trans begins)
    rw [← passed_append (front ++ piece.toList) rest, ← parts, reached, others, List.append_assoc,
      passed_append]
  subst same
  have whole : text = front ++ (piece ++ next).toList ++ back := by
    rw [others, String.toList_append, ← List.append_assoc front]
  have last : stop = (encode (front ++ (piece ++ next).toList)).length := by
    rw [stops, String.toList_append, List.append_assoc]
  have read := (Yields.piece whole starts last).read_eq
  rw [String.ofList_toList] at read
  exact read

/-!
# Slices of a source
-/

/-- What the bytes of a text tell of it: where it is cut, and what they hold between two offsets. -/
structure AreReadAs (bytes : List UInt8) (text : List Char) : Prop where
  isBoundary_iff : ∀ offset : Int, isBoundary bytes offset = true ↔ IsCutAt text offset
  ok_iff : ∀ start stop : Int,
    (∃ piece, read bytes start stop = .ok piece) ↔ IsCutAt text start ∧ IsCutAt text stop
  eq_iff : ∀ (start stop : Int) result,
    read bytes start stop = result ↔ Yields text start stop result
  encode_eq : ∀ (start stop : Int) piece, read bytes start stop = .ok piece →
    encode piece.toList = (bytes.take stop.toNat).drop start.toNat
  append_eq : ∀ start middle stop : Int, start ≤ middle → middle ≤ stop → ∀ piece next,
    read bytes start middle = .ok piece → read bytes middle stop = .ok next →
      read bytes start stop = .ok (piece ++ next)

theorem slices_exact (source : String) : AreReadAs (encode source.toList) source.toList where
  isBoundary_iff := isBoundary_iff_isCutAt source.toList
  ok_iff := exists_read_eq_ok_iff source.toList
  eq_iff start stop _ := read_eq_iff source.toList start stop
  encode_eq _ _ _ := encode_of_read_eq_ok
  append_eq _ _ _ first second _ _ := read_append first second

example : ¬ IsCutAt ['a', 'é'] 2 ∧
    read (encode ['a', 'é']) (-1) 2 = .error (.failure (.invalidCharBoundary (-1))) := by
  decide +kernel

/-- Ends in the wrong order are not refused, and an end with too many digits is not told about. -/
theorem slices_unrefused_letters :
    read (encode "ab".toList) 2 1 = .ok "" ∧
      read (encode "ab".toList) 0 (Nat.pow 10 Digits.limit) = .error (.fault .longNumber) := by
  have far : ((encode "ab".toList).length : Int) < (Nat.pow 10 Digits.limit : Nat) :=
    Int.ofNat_lt.mpr (Digits.lt_pow_limit (by decide))
  have given : max (0 : Int) (Nat.pow 10 Digits.limit : Nat) = (Nat.pow 10 Digits.limit : Nat) :=
    max_eq_right (Int.natCast_nonneg _)
  refine ⟨by decide +kernel, ?_⟩
  rw [read, slice_of_checkRange (checkRange_beyond (Or.inr far)), given, raising, Except.mapError,
    Failure.raised_of_not_isWritable]
  rw [Failure.isWritable, Failure.numbers, List.all_cons, Digits.isWritable_pow_limit]
  rfl

end Slice
end SourceReport

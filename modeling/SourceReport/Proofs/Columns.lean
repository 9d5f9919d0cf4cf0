import Mathlib.Data.List.Induction
import Mathlib.Data.List.TakeWhile
import SourceReport.Proofs.Lines

/-!
# Columns of offsets

The bytes before an offset hold some characters as a whole. The line of the offset is the number of
newlines among these, and its column is the number of those that come after the last newline.
-/

namespace SourceReport
namespace Utf8

/-!
# Characters that end before an offset
-/

/-- The number of characters whose last byte lies before the offset. -/
def endedBy (text : List Char) (offset : Nat) : Nat :=
  (List.range text.length).countP fun i => (encode (text.take (i + 1))).length ≤ offset

/-- The characters whose last byte lies before the offset. -/
def passed (text : List Char) (offset : Nat) : List Char :=
  text.take (endedBy text offset)

theorem endedBy_cons (c : Char) (rest : List Char) (offset : Nat) :
    endedBy (c :: rest) offset =
      if c.utf8Size ≤ offset then endedBy rest (offset - c.utf8Size) + 1 else 0 := by
  rw [endedBy, List.length_cons, List.range_succ_eq_map, List.countP_cons, List.countP_map]
  have first : (encode ((c :: rest).take (0 + 1))).length = c.utf8Size := by
    simp
  by_cases fits : c.utf8Size ≤ offset
  · rw [first, if_pos (decide_eq_true fits), if_pos fits, endedBy]
    congr 1
    apply List.countP_congr
    intro i _
    simp only [Function.comp_apply, Nat.succ_eq_add_one, List.take_succ_cons, encode_cons,
      List.length_append, String.length_utf8EncodeChar, decide_eq_true_eq]
    omega
  · have others : (List.range rest.length).countP ((fun i =>
        decide ((encode ((c :: rest).take (i + 1))).length ≤ offset)) ∘ Nat.succ) = 0 := by
      rw [List.countP_eq_zero]
      intro i _
      simp only [Function.comp_apply, List.take_succ_cons, encode_cons, List.length_append,
        String.length_utf8EncodeChar, decide_eq_true_eq]
      omega
    rw [first, others, if_neg (by simpa using fits), if_neg fits]

theorem endedBy_zero (text : List Char) : endedBy text 0 = 0 := by
  cases text with
  | nil => rfl
  | cons c rest =>
      have positive := c.utf8Size_pos
      rw [endedBy_cons, if_neg (by omega)]

/-- The next character is not over at the offset. -/
def IsNext (back : List Char) (offset : Nat) : Prop :=
  ∀ c ∈ back.head?, offset < c.utf8Size

theorem endedBy_append (front : List Char) {back : List Char} {offset : Nat}
    (reached : (encode front).length ≤ offset)
    (next : IsNext back (offset - (encode front).length)) :
    endedBy (front ++ back) offset = front.length := by
  induction front generalizing offset with
  | nil =>
      cases back with
      | nil => rfl
      | cons c rest =>
          have later := next c rfl
          rw [List.nil_append, endedBy_cons, if_neg (by simpa using later)]
          rfl
  | cons c rest ih =>
      rw [encode_cons, List.length_append, String.length_utf8EncodeChar] at reached next
      rw [List.cons_append, endedBy_cons, if_pos (by omega), ih (by omega)]
      · rfl
      · rw [Nat.sub_sub]
        exact next

theorem exists_eq_passed_append (text : List Char) (offset : Nat) :
    ∃ back, text = passed text offset ++ back ∧ (encode (passed text offset)).length ≤ offset ∧
      IsNext back (offset - (encode (passed text offset)).length) := by
  induction text generalizing offset with
  | nil => exact ⟨[], rfl, Nat.zero_le offset, fun c none => by cases none⟩
  | cons c rest ih =>
      rw [passed, endedBy_cons]
      split
      · rename_i fits
        rcases ih (offset - c.utf8Size) with ⟨back, whole, reached, next⟩
        refine ⟨back, congrArg (c :: ·) whole, ?_, ?_⟩
        · rw [List.take_succ_cons, encode_cons, List.length_append, String.length_utf8EncodeChar]
          rw [passed] at reached
          omega
        · rw [List.take_succ_cons, encode_cons, List.length_append, String.length_utf8EncodeChar,
            ← Nat.sub_sub]
          exact next
      · rename_i short
        refine ⟨c :: rest, rfl, Nat.zero_le offset, ?_⟩
        intro head this
        cases this
        exact Nat.lt_of_not_le short

theorem passed_append (front : List Char) (back : List Char) :
    passed (front ++ back) (encode front).length = front := by
  have next : IsNext back ((encode front).length - (encode front).length) := by
    intro c _
    rw [Nat.sub_self]
    exact c.utf8Size_pos
  rw [passed, endedBy_append front (Nat.le_refl _) next, List.take_left]

/-!
# The last line of a text
-/

/-- The characters after the last newline. -/
def lastLine (text : List Char) : List Char :=
  (text.reverse.takeWhile (· ≠ '\n')).reverse

theorem lastLine_append (front : List Char) {back : List Char} (h : '\n' ∉ back) :
    lastLine (front ++ back) = lastLine front ++ back := by
  have unbroken : ∀ c ∈ back.reverse, decide (c ≠ '\n') = true := by
    intro c member
    apply decide_eq_true
    rintro rfl
    exact h (List.mem_reverse.mp member)
  rw [lastLine, List.reverse_append, List.takeWhile_append_of_pos unbroken, List.reverse_append,
    List.reverse_reverse, lastLine]

theorem lastLine_newline (front : List Char) : lastLine (front ++ ['\n']) = [] := by
  simp [lastLine]

theorem newline_not_mem_lastLine (text : List Char) : '\n' ∉ lastLine text := by
  intro member
  have other := List.mem_takeWhile_imp (List.mem_reverse.mp member)
  simp at other

/-- What comes before the last line is empty or ends with a newline. -/
theorem exists_eq_append_lastLine (text : List Char) :
    ∃ front, text = front ++ lastLine text ∧ (front = [] ∨ ∃ lines, front = lines ++ ['\n']) := by
  induction text using List.reverseRecOn with
  | nil => exact ⟨[], rfl, Or.inl rfl⟩
  | append_singleton text c ih =>
      by_cases newline : c = '\n'
      · subst newline
        rw [lastLine_newline]
        exact ⟨text ++ ['\n'], (List.append_nil _).symm, Or.inr ⟨text, rfl⟩⟩
      · have other : '\n' ∉ [c] := by
          rw [List.mem_singleton]
          exact Ne.symm newline
        rcases ih with ⟨front, whole, ends⟩
        rw [lastLine_append text other]
        refine ⟨front, ?_, ends⟩
        rw [← List.append_assoc, ← whole]

/-- Of two beginnings of a text, the longer one has more newlines or a longer last line. -/
theorem eq_of_position_eq {text a b more rest : List Char} (left : text = a ++ more)
    (right : text = b ++ rest) (lines : a.count '\n' = b.count '\n')
    (columns : (lastLine a).length = (lastLine b).length) : a = b := by
  have nested : ∀ {a b : List Char}, a <+: b → a.count '\n' = b.count '\n' →
      (lastLine a).length = (lastLine b).length → a = b := by
    rintro a b ⟨between, rfl⟩ lines columns
    rw [List.count_append] at lines
    have unbroken : '\n' ∉ between := List.count_eq_zero.mp (by omega)
    rw [lastLine_append a unbroken, List.length_append] at columns
    have empty : between = [] := List.length_eq_zero_iff.mp (by omega)
    rw [empty, List.append_nil]
  rcases List.prefix_or_prefix_of_prefix ⟨more, left.symm⟩ ⟨rest, right.symm⟩ with below | above
  · exact nested below lines columns
  · exact (nested above lines.symm columns.symm).symm

end Utf8

namespace Lines

open Utf8

/-!
# The line of an offset
-/

theorem lineAt_encode (text : List Char) (offset : Nat) :
    lineAt (encode text) offset = (passed text offset).count '\n' := by
  induction text generalizing offset with
  | nil => simp [lineAt, passed]
  | cons c rest ih =>
      rw [passed, endedBy_cons]
      by_cases newline : c = '\n'
      · subst newline
        rw [encode_cons, encodeChar_newline, List.singleton_append]
        cases offset with
        | zero => rfl
        | succ offset =>
            have next := ih offset
            have short : '\n'.utf8Size ≤ offset + 1 := Nat.succ_le_succ (Nat.zero_le offset)
            rw [if_pos short, List.take_succ_cons, List.count_cons_self, lineAt,
              List.take_succ_cons, List.count_cons_self, ← lineAt, next]
            rfl
      · rw [encode_cons, lineAt_append (newline_not_mem_encodeChar newline),
          String.length_utf8EncodeChar]
        split
        · rw [List.take_succ_cons, List.count_cons_of_ne newline, ih]
          rfl
        · rename_i short
          have zero : offset - c.utf8Size = 0 := by omega
          rw [zero, lineAt]
          rfl

theorem startOf_newline_append (front rest : List Char) :
    startOf (front ++ '\n' :: rest) (front.count '\n' + 1) = (encode front).length + 1 := by
  induction front with
  | nil =>
      rw [List.nil_append, List.count_nil, startOf_newline, startOf_zero]
      rfl
  | cons c front ih =>
      by_cases newline : c = '\n'
      · subst newline
        rw [List.cons_append, List.count_cons_self, startOf_newline, ih, encode_cons,
          encodeChar_newline, List.length_append]
        simp
        omega
      · rw [List.cons_append, List.count_cons_of_ne newline, startOf_cons newline, ih, encode_cons,
          List.length_append, String.length_utf8EncodeChar]
        omega

/-- The last line of a beginning of the text starts where a line of the text starts. -/
theorem startOf_lastLine (front back : List Char) :
    startOf (front ++ back) (front.count '\n') + (encode (lastLine front)).length =
      (encode front).length := by
  rcases exists_eq_append_lastLine front with ⟨lines, whole, ends⟩
  have unbroken : (lastLine front).count '\n' = 0 :=
    List.count_eq_zero.mpr (newline_not_mem_lastLine front)
  have length : (encode front).length =
      (encode lines).length + (encode (lastLine front)).length := by
    rw [← List.length_append, ← encode_append, ← whole]
  have count : front.count '\n' = lines.count '\n' := by
    rw [whole, List.count_append, unbroken, Nat.add_zero]
  rw [count, length]
  congr 1
  rcases ends with rfl | ⟨others, rfl⟩
  · rw [List.count_nil, startOf_zero]
    rfl
  · have start := startOf_newline_append others (lastLine front ++ back)
    rw [whole, List.append_assoc, List.append_assoc, List.singleton_append, List.count_append,
      List.count_singleton_self, start, encode_append, List.length_append]
    rfl

/-- An offset does not lie past the end of its line. -/
theorem length_passed_le (text : List Char) (offset : Nat) :
    (encode (passed text offset)).length ≤ startOf text (lineAt (encode text) offset + 1) := by
  rcases exists_eq_passed_append text offset with ⟨back, whole, reached, _⟩
  have inside := lineAt_lt text offset
  by_cases last : lineAt (encode text) offset + 1 < (withEnds text).length
  · have next := startOf_le_iff text last offset
    omega
  · have ends : lineAt (encode text) offset + 1 = (withEnds text).length := by omega
    have length : (encode text).length = (encode (passed text offset ++ back)).length := by
      rw [← whole]
    rw [encode_append, List.length_append] at length
    rw [ends, startOf_length]
    omega

end Lines

namespace Slice

open Utf8 Lines

/-!
# The column of an offset
-/

/-- The bytes that begin characters, and the end of the bytes, count the characters that end. -/
theorem countP_encode (c : Char) (rest : List Char) (offset : Nat)
    (h : offset ≤ (encode (c :: rest)).length) :
    (((encode (c :: rest)).drop 1).take offset).countP (fun byte => !isContinuation byte) +
        (if offset = (encode (c :: rest)).length then 1 else 0) = endedBy (c :: rest) offset := by
  induction rest generalizing c offset with
  | nil =>
      rcases encodeChar_eq_cons c with ⟨lead, tail, bytes, _, continues⟩
      have size : c.utf8Size = tail.length + 1 := by
        rw [← String.length_utf8EncodeChar c, bytes, List.length_cons]
      have none : (tail.take offset).countP (fun byte => !isContinuation byte) = 0 := by
        rw [List.countP_eq_zero]
        intro byte member
        simp [continues byte (List.mem_of_mem_take member)]
      rw [endedBy_cons, encode_cons, encode_nil, List.append_nil, bytes, List.drop_succ_cons,
        List.drop_zero, none, List.length_cons, size]
      rw [encode_cons, encode_nil, List.append_nil, String.length_utf8EncodeChar, size] at h
      by_cases ends : offset = tail.length + 1
      · rw [if_pos ends, if_pos (by omega)]
        rfl
      · rw [if_neg ends, if_neg (by omega)]
  | cons next rest ih =>
      rcases encodeChar_eq_cons c with ⟨lead, tail, bytes, _, continues⟩
      rcases encodeChar_eq_cons next with ⟨head, others, following, leads, _⟩
      have size : c.utf8Size = tail.length + 1 := by
        rw [← String.length_utf8EncodeChar c, bytes, List.length_cons]
      have none : ∀ count, (tail.take count).countP (fun byte => !isContinuation byte) = 0 := by
        intro count
        rw [List.countP_eq_zero]
        intro byte member
        simp [continues byte (List.mem_of_mem_take member)]
      have dropped : (encode (c :: next :: rest)).drop 1 = tail ++ encode (next :: rest) := by
        rw [encode_cons, bytes]
        rfl
      have length : (encode (c :: next :: rest)).length =
          c.utf8Size + (encode (next :: rest)).length := by
        rw [encode_cons, List.length_append, String.length_utf8EncodeChar]
      rw [endedBy_cons, dropped, List.take_append, List.countP_append, none, length]
      by_cases fits : c.utf8Size ≤ offset
      · have begun : (encode (next :: rest)).take (offset - tail.length) =
            head :: ((encode (next :: rest)).drop 1).take (offset - c.utf8Size) := by
          have count : offset - tail.length = (offset - c.utf8Size) + 1 := by omega
          rw [count, encode_cons, following]
          rfl
        have later := ih next (offset - c.utf8Size) (by omega)
        have same : (offset = c.utf8Size + (encode (next :: rest)).length) =
            (offset - c.utf8Size = (encode (next :: rest)).length) := by
          apply propext
          omega
        rw [if_pos fits, begun, List.countP_cons, leads.1, ← later]
        simp only [same, Bool.not_false, if_true]
        omega
      · have zero : offset - tail.length = 0 := by omega
        rw [if_neg fits, zero, List.take_zero, List.countP_nil, if_neg (by omega)]

/-- From a place between two characters on, the column counts the characters that end. -/
theorem columnIndex_encode (front back : List Char) (stop offset : Nat) :
    columnIndex (encode (front ++ back)) ((encode front).length, stop) offset =
      endedBy back (min offset (min stop (encode (front ++ back)).length) -
        (encode front).length) := by
  have length : (encode (front ++ back)).length = (encode front).length + (encode back).length := by
    rw [encode_append, List.length_append]
  have high : min (offset : Int) (min (stop : Int) (encode (front ++ back)).length) =
      (min offset (min stop (encode (front ++ back)).length) : Nat) := by omega
  simp only [columnIndex, high]
  generalize reach : min offset (min stop (encode (front ++ back)).length) = n
  have bound : n ≤ (encode front).length + (encode back).length := by omega
  have low : max (((encode front).length : Int) + 1) 0 = ((encode front).length + 1 : Nat) := by
    omega
  rw [low]
  by_cases empty : n < (encode front).length + 1
  · have zero : n - (encode front).length = 0 := by omega
    rw [if_pos (by omega), zero, endedBy_zero]
  · cases back with
    | nil =>
        rw [encode_nil, List.length_nil] at bound
        omega
    | cons c rest =>
        have counted := countP_encode c rest (n - (encode front).length) (by omega)
        have bytes : (encode (front ++ c :: rest)).drop ((encode front).length + 1) =
            (encode (c :: rest)).drop 1 := by
          rw [encode_append, ← List.drop_drop, List.drop_left]
        have count : ((n : Int) + 1 - ((encode front).length + 1 : Nat)).toNat =
            n - (encode front).length := by omega
        have same : ((n : Int) = (encode (front ++ c :: rest)).length) =
            (n - (encode front).length = (encode (c :: rest)).length) := by
          apply propext
          omega
        rw [if_neg (by omega), Int.toNat_natCast, bytes, count, ← counted]
        simp only [same]

theorem columnIndex_line (text : List Char) (offset : Nat) :
    columnIndex (encode text)
        (startOf text (lineAt (encode text) offset),
          startOf text (lineAt (encode text) offset + 1)) offset =
      (lastLine (passed text offset)).length := by
  rcases exists_eq_passed_append text offset with ⟨back, whole, reached, next⟩
  rcases exists_eq_append_lastLine (passed text offset) with ⟨lines, split, _⟩
  have start := startOf_lastLine (passed text offset) back
  have length : (encode (passed text offset)).length =
      (encode lines).length + (encode (lastLine (passed text offset))).length := by
    rw [← List.length_append, ← encode_append, ← split]
  rw [← whole, ← lineAt_encode] at start
  have first : startOf text (lineAt (encode text) offset) = (encode lines).length := by omega
  have parts : text = lines ++ (lastLine (passed text offset) ++ back) := by
    rw [← List.append_assoc, ← split]
    exact whole
  have inside := length_passed_le text offset
  have total : (encode (passed text offset)).length ≤ (encode text).length := by
    have both := congrArg (fun text => (encode text).length) whole
    simp only [encode_append, List.length_append] at both
    omega
  have column := columnIndex_encode lines (lastLine (passed text offset) ++ back)
    (startOf text (lineAt (encode text) offset + 1)) offset
  rw [← parts] at column
  rw [first, column]
  apply endedBy_append
  · omega
  · intro c head
    have later := next c head
    omega

end Slice

end SourceReport

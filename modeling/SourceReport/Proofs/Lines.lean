import SourceReport.Proofs.Encoding
import SourceReport.Source.FileBase
import SourceReport.Text.Split

/-!
# Lines of a source

The lines of a text, each with the newline that ends it, make up the text. The line starts are the
lengths of the lines before, and the halving search finds the number of newlines before an offset.
-/

namespace SourceReport
namespace Lines

open Utf8

/-!
# A text as its lines
-/

/-- Puts a newline after every piece but the last. -/
def addEnds : List (List Char) → List (List Char)
  | [] => []
  | [piece] => [piece]
  | piece :: next :: rest => (piece ++ ['\n']) :: addEnds (next :: rest)

def withEnds (text : List Char) : List (List Char) :=
  addEnds (splitLines text)

theorem addEnds_cons {pieces : List (List Char)} (h : pieces ≠ []) (piece : List Char) :
    addEnds (piece :: pieces) = (piece ++ ['\n']) :: addEnds pieces := by
  cases pieces with
  | nil => exact absurd rfl h
  | cons next rest => rfl

theorem withEnds_newline (rest : List Char) :
    withEnds ('\n' :: rest) = ['\n'] :: withEnds rest := by
  have split : splitLines ('\n' :: rest) = [] :: splitLines rest := by
    simp [splitLines, pieces]
  rw [withEnds, split]
  exact addEnds_cons (pieces_ne_nil '\n' rest) []

theorem withEnds_cons {c : Char} (h : c ≠ '\n') (rest : List Char) :
    ∃ line more, withEnds rest = line :: more ∧ withEnds (c :: rest) = (c :: line) :: more := by
  cases found : splitLines rest with
  | nil => exact absurd found (pieces_ne_nil '\n' rest)
  | cons piece others =>
      have split : splitLines (c :: rest) = (c :: piece) :: others := by
        simp only [splitLines] at found ⊢
        simp [pieces, h, found]
      rw [withEnds, withEnds, found, split]
      cases others with
      | nil => exact ⟨piece, [], rfl, rfl⟩
      | cons next more => exact ⟨piece ++ ['\n'], addEnds (next :: more), rfl, rfl⟩

theorem flatten_withEnds (text : List Char) : (withEnds text).flatten = text := by
  induction text with
  | nil => rfl
  | cons c rest ih =>
      by_cases h : c = '\n'
      · subst h
        rw [withEnds_newline, List.flatten_cons, ih]
        rfl
      · rcases withEnds_cons h rest with ⟨line, more, before, after⟩
        rw [before] at ih
        rw [after, ← ih]
        simp

theorem length_addEnds (pieces : List (List Char)) : (addEnds pieces).length = pieces.length := by
  induction pieces with
  | nil => rfl
  | cons piece rest ih =>
      cases rest with
      | nil => rfl
      | cons next more =>
          rw [addEnds, List.length_cons, ih]
          rfl

theorem length_withEnds (text : List Char) :
    (withEnds text).length = text.count '\n' + 1 := by
  rw [withEnds, length_addEnds]
  exact length_pieces '\n' text

theorem getElem?_addEnds (pieces : List (List Char)) (i : Nat) :
    (addEnds pieces)[i]? =
      pieces[i]?.map fun piece => if i + 1 < pieces.length then piece ++ ['\n'] else piece := by
  induction pieces generalizing i with
  | nil => rfl
  | cons piece rest ih =>
      cases rest with
      | nil => cases i <;> rfl
      | cons next more =>
          rw [addEnds_cons (by simp)]
          cases i with
          | zero => simp
          | succ i =>
              rw [List.getElem?_cons_succ, ih, List.getElem?_cons_succ]
              simp

/-!
# Line starts
-/

/-- The bytes of all lines before line `i`. -/
def startOf (text : List Char) (i : Nat) : Nat :=
  (encode ((withEnds text).take i).flatten).length

@[simp]
theorem startOf_zero (text : List Char) : startOf text 0 = 0 := by
  rw [startOf, List.take_zero]
  rfl

theorem startOf_newline (rest : List Char) (i : Nat) :
    startOf ('\n' :: rest) (i + 1) = 1 + startOf rest i := by
  rw [startOf, startOf, withEnds_newline, List.take_succ_cons, List.flatten_cons, encode_append,
    List.length_append]
  rfl

theorem startOf_cons {c : Char} (h : c ≠ '\n') (rest : List Char) (i : Nat) :
    startOf (c :: rest) (i + 1) = c.utf8Size + startOf rest (i + 1) := by
  rcases withEnds_cons h rest with ⟨line, more, before, after⟩
  rw [startOf, startOf, before, after, List.take_succ_cons, List.take_succ_cons, List.flatten_cons,
    List.flatten_cons, List.cons_append, encode_cons, List.length_append,
    String.length_utf8EncodeChar]

theorem startOf_length (text : List Char) :
    startOf text (withEnds text).length = (encode text).length := by
  rw [startOf, List.take_length, flatten_withEnds]

theorem startsAfter_append {bytes : List UInt8} (h : newline ∉ bytes) (offset : Nat)
    (rest : List UInt8) :
    startsAfter offset (bytes ++ rest) = startsAfter (offset + bytes.length) rest := by
  induction bytes generalizing offset with
  | nil => rfl
  | cons byte bytes ih =>
      rw [List.mem_cons, not_or] at h
      rw [List.cons_append, startsAfter, if_neg (Ne.symm h.1), ih h.2, List.length_cons]
      congr 1
      omega

theorem startsAfter_encode (text : List Char) (offset : Nat) :
    offset :: startsAfter offset (encode text) =
      (List.range (withEnds text).length).map fun i => offset + startOf text i := by
  induction text generalizing offset with
  | nil => rfl
  | cons c rest ih =>
      by_cases h : c = '\n'
      · subst h
        rw [encode_cons, encodeChar_newline, withEnds_newline, List.length_cons,
          List.range_succ_eq_map, List.map_cons, List.map_map]
        have next := ih (offset + 1)
        rw [List.singleton_append, startsAfter, if_pos rfl, next]
        congr 1
        apply List.map_congr_left
        intro i _
        rw [Function.comp_apply, startOf_newline]
        omega
      · have length : (withEnds (c :: rest)).length = (withEnds rest).length := by
          rw [length_withEnds, length_withEnds, List.count_cons_of_ne h]
        have next := ih (offset + c.utf8Size)
        rw [encode_cons, startsAfter_append (newline_not_mem_encodeChar h),
          String.length_utf8EncodeChar, length, length_withEnds, List.range_succ_eq_map,
          List.map_cons, List.map_map]
        rw [length_withEnds, List.range_succ_eq_map, List.map_cons, List.map_map] at next
        rw [(List.cons.inj next).2]
        congr 1
        apply List.map_congr_left
        intro i _
        rw [Function.comp_apply, Function.comp_apply, Nat.succ_eq_add_one, startOf_cons h]
        omega

/-- The line starts of an encoded text are the lengths of the lines before. -/
theorem starts_encode (text : List Char) :
    starts (encode text) = (List.range (withEnds text).length).map (startOf text) := by
  have all := startsAfter_encode text 0
  simpa [starts] using all

/-!
# The line of an offset
-/

/-- The number of newlines before an offset. -/
def lineAt (bytes : List UInt8) (offset : Nat) : Nat :=
  (bytes.take offset).count newline

theorem lineAt_mono (bytes : List UInt8) {a b : Nat} (h : a ≤ b) :
    lineAt bytes a ≤ lineAt bytes b :=
  (List.take_prefix_take_left h).sublist.count_le newline

theorem lineAt_append {front : List UInt8} (h : newline ∉ front) (back : List UInt8)
    (offset : Nat) :
    lineAt (front ++ back) offset = lineAt back (offset - front.length) := by
  rw [lineAt, lineAt, List.take_append, List.count_append]
  have unbroken : (front.take offset).count newline = 0 :=
    List.count_eq_zero.mpr fun member => h (List.mem_of_mem_take member)
  omega

theorem lineAt_lt (text : List Char) (offset : Nat) :
    lineAt (encode text) offset < (withEnds text).length := by
  have part := (List.take_sublist offset (encode text)).count_le newline
  rw [count_newline_encode] at part
  rw [length_withEnds]
  exact Nat.lt_succ_of_le part

/-- A line starts at or before an offset if and only if there are enough newlines before it. -/
theorem startOf_le_iff (text : List Char) {i : Nat} (h : i < (withEnds text).length)
    (offset : Nat) : startOf text i ≤ offset ↔ i ≤ lineAt (encode text) offset := by
  induction text generalizing i offset with
  | nil =>
      have first : i = 0 := by simpa [length_withEnds] using h
      subst first
      simp
  | cons c rest ih =>
      cases i with
      | zero => simp
      | succ i =>
          by_cases hc : c = '\n'
          · subst hc
            rw [withEnds_newline, List.length_cons] at h
            rw [startOf_newline, encode_cons, encodeChar_newline, List.singleton_append]
            cases offset with
            | zero => simp [lineAt]
            | succ offset =>
                have next := ih (Nat.lt_of_succ_lt_succ h) offset
                rw [lineAt, List.take_succ_cons, List.count_cons_self, ← lineAt]
                omega
          · rw [length_withEnds, List.count_cons_of_ne hc, ← length_withEnds] at h
            have next := ih h (offset - c.utf8Size)
            rw [startOf_cons hc, encode_cons, lineAt_append (newline_not_mem_encodeChar hc),
              String.length_utf8EncodeChar]
            by_cases reached : c.utf8Size ≤ offset
            · omega
            · have zero : offset - c.utf8Size = 0 := by omega
              rw [zero, lineAt, List.take_zero, List.count_nil]
              omega

/-- The halving search finds the number of newlines before an offset. -/
theorem lineIndex_encode (text : List Char) (offset : Nat) :
    lineIndex ((starts (encode text)).map Int.ofNat) offset = lineAt (encode text) offset := by
  have found (i : Nat) (h : i < (withEnds text).length) :
      ((starts (encode text)).map Int.ofNat).getD i 0 = startOf text i := by
    simp [starts_encode, List.getD_eq_getElem?_getD, h]
  have count : ((starts (encode text)).map Int.ofNat).length = (withEnds text).length := by
    simp [starts_encode]
  have inside := lineAt_lt text offset
  rw [lineIndex, count, upperBound_eq _ _ _ (lineAt (encode text) offset + 1) (by omega) (by omega)]
  · omega
  · intro i below
    have reached := (startOf_le_iff text (by omega) offset).mpr (Nat.le_of_lt_succ below)
    rw [found i (by omega), decide_eq_false_iff_not]
    omega
  · intro i above h
    have reached := startOf_le_iff text h offset
    rw [found i h, decide_eq_true_iff]
    omega

/-!
# Cutting out a line
-/

theorem text_eq_around (text : List Char) {i : Nat} {line : List Char}
    (h : (withEnds text)[i]? = some line) :
    text = ((withEnds text).take i).flatten ++ line ++ ((withEnds text).drop (i + 1)).flatten := by
  rcases List.getElem?_eq_some_iff.mp h with ⟨inside, rfl⟩
  have whole := flatten_withEnds text
  rw [← List.take_append_drop i (withEnds text), List.drop_eq_getElem_cons inside,
    List.flatten_append, List.flatten_cons, ← List.append_assoc] at whole
  exact whole.symm

theorem slice_line (text : List Char) {i : Nat} {line : List Char}
    (h : (withEnds text)[i]? = some line) :
    Slice.slice (encode text) (startOf text i) (startOf text (i + 1)) =
      .ok (String.ofList line) := by
  have next : ((withEnds text).take (i + 1)).flatten =
      ((withEnds text).take i).flatten ++ line := by
    rw [List.take_add_one, h]
    simp
  have whole := Slice.slice_encode ((withEnds text).take i).flatten line
    ((withEnds text).drop (i + 1)).flatten
  rw [← text_eq_around text h, ← next] at whole
  exact whole

end Lines
end SourceReport

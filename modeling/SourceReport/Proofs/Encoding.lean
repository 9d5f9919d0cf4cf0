import SourceReport.Source.Lines
import SourceReport.Source.Slice

/-!
# Encoded text

The bytes of a text fall into the bytes of its characters: each character begins with a byte that
continues nothing, and all its other bytes are continuations. So the bytes alone tell which offsets
stand between two characters, and a newline byte is a newline.
-/

namespace SourceReport
namespace Utf8

/-!
# The bytes of one character
-/

theorem isContinuation_trailing (n : Nat) :
    isContinuation (UInt8.ofNat (n % 0x40 + 0x80)) = true := by
  have all : ∀ m < 0x40, isContinuation (UInt8.ofNat (m + 0x80)) = true := by decide
  exact all _ (Nat.mod_lt n (by decide))

/-- A byte that begins a character of its own, but is no newline unless it is that character. -/
def IsLead (c : Char) (byte : UInt8) : Prop :=
  isContinuation byte = false ∧ (byte = Lines.newline → c = '\n')

theorem isLead_ascii {c : Char} (h : c.val.toNat ≤ 0x7f) :
    IsLead c (UInt8.ofNat c.val.toNat) := by
  have all : ∀ m < 0x80, isContinuation (UInt8.ofNat m) = false ∧
      (UInt8.ofNat m = Lines.newline → m = 10) := by decide
  rcases all c.val.toNat (by omega) with ⟨leads, ends⟩
  refine ⟨leads, ?_⟩
  intro newline
  exact Char.ext (UInt32.toNat_inj.mp (ends newline))

theorem isLead_two (c : Char) (n : Nat) : IsLead c (UInt8.ofNat (n % 0x20 + 0xc0)) := by
  have all : ∀ m < 0x20, isContinuation (UInt8.ofNat (m + 0xc0)) = false ∧
      UInt8.ofNat (m + 0xc0) ≠ Lines.newline := by decide
  rcases all _ (Nat.mod_lt n (by decide)) with ⟨leads, other⟩
  exact ⟨leads, fun newline => absurd newline other⟩

theorem isLead_three (c : Char) (n : Nat) : IsLead c (UInt8.ofNat (n % 0x10 + 0xe0)) := by
  have all : ∀ m < 0x10, isContinuation (UInt8.ofNat (m + 0xe0)) = false ∧
      UInt8.ofNat (m + 0xe0) ≠ Lines.newline := by decide
  rcases all _ (Nat.mod_lt n (by decide)) with ⟨leads, other⟩
  exact ⟨leads, fun newline => absurd newline other⟩

theorem isLead_four (c : Char) (n : Nat) : IsLead c (UInt8.ofNat (n % 0x08 + 0xf0)) := by
  have all : ∀ m < 0x08, isContinuation (UInt8.ofNat (m + 0xf0)) = false ∧
      UInt8.ofNat (m + 0xf0) ≠ Lines.newline := by decide
  rcases all _ (Nat.mod_lt n (by decide)) with ⟨leads, other⟩
  exact ⟨leads, fun newline => absurd newline other⟩

/-- A character is one leading byte and continuations after it. -/
theorem encodeChar_eq_cons (c : Char) :
    ∃ lead rest, String.utf8EncodeChar c = lead :: rest ∧ IsLead c lead ∧
      ∀ byte ∈ rest, isContinuation byte = true := by
  simp only [String.utf8EncodeChar]
  split
  · rename_i short
    exact ⟨_, [], rfl, isLead_ascii short, by simp⟩
  · split
    · refine ⟨_, _, rfl, isLead_two c _, ?_⟩
      simp only [List.forall_mem_cons, isContinuation_trailing, true_and]
      exact List.forall_mem_nil _
    · split
      · refine ⟨_, _, rfl, isLead_three c _, ?_⟩
        simp only [List.forall_mem_cons, isContinuation_trailing, true_and]
        exact List.forall_mem_nil _
      · refine ⟨_, _, rfl, isLead_four c _, ?_⟩
        simp only [List.forall_mem_cons, isContinuation_trailing, true_and]
        exact List.forall_mem_nil _

theorem encodeChar_newline : String.utf8EncodeChar '\n' = [Lines.newline] := by
  decide

theorem newline_not_mem_encodeChar {c : Char} (h : c ≠ '\n') :
    Lines.newline ∉ String.utf8EncodeChar c := by
  rcases encodeChar_eq_cons c with ⟨lead, rest, bytes, leads, continues⟩
  rw [bytes]
  intro member
  cases member with
  | head => exact h (leads.2 rfl)
  | tail _ later =>
      have continued := continues _ later
      revert continued
      decide

/-- The newline bytes of an encoding are the newlines of its text. -/
theorem count_newline_encode (text : List Char) :
    (encode text).count Lines.newline = text.count '\n' := by
  induction text with
  | nil => rfl
  | cons c rest ih =>
      rw [encode_cons, List.count_append, ih]
      by_cases h : c = '\n'
      · subst h
        rw [encodeChar_newline, List.count_cons_self]
        simp
        omega
      · rw [List.count_eq_zero.mpr (newline_not_mem_encodeChar h), List.count_cons_of_ne h]
        omega

/-!
# Offsets between two characters
-/

/-- The offset is the length of the encoding of some beginning of the text. -/
def IsCut (text : List Char) (offset : Nat) : Prop :=
  ∃ front back, text = front ++ back ∧ (encode front).length = offset

theorem isCut_zero (text : List Char) : IsCut text 0 :=
  ⟨[], text, rfl, rfl⟩

theorem isCut_append (front back : List Char) : IsCut (front ++ back) (encode front).length :=
  ⟨front, back, rfl, rfl⟩

theorem IsCut.le_length {text : List Char} {offset : Nat} (cut : IsCut text offset) :
    offset ≤ (encode text).length := by
  rcases cut with ⟨front, back, rfl, rfl⟩
  simp

theorem isCut_cons_iff (c : Char) (rest : List Char) (offset : Nat) :
    IsCut (c :: rest) offset ↔
      offset = 0 ∨ (c.utf8Size ≤ offset ∧ IsCut rest (offset - c.utf8Size)) := by
  constructor
  · rintro ⟨front, back, parts, rfl⟩
    cases front with
    | nil => exact Or.inl rfl
    | cons head front =>
        injection parts with same others
        subst same
        refine Or.inr ⟨by simp, front, back, others, by simp⟩
  · rintro (rfl | ⟨reached, front, back, rfl, length⟩)
    · exact isCut_zero _
    · refine ⟨c :: front, back, rfl, ?_⟩
      rw [encode_cons, List.length_append, String.length_utf8EncodeChar, length]
      omega

end Utf8

namespace Slice

open Utf8

theorem isBoundary_natCast (bytes : List UInt8) (offset : Nat) :
    isBoundary bytes offset = true ↔
      offset = bytes.length ∨ ∃ byte, bytes[offset]? = some byte ∧ isContinuation byte = false := by
  rw [isBoundary, Bool.or_eq_true, decide_eq_true_eq, Int.natCast_inj]
  cases found : bytes[offset]? <;> simp [found]

/-- The bytes tell which offsets stand between two characters. -/
theorem isBoundary_encode_iff (text : List Char) (offset : Nat) :
    isBoundary (encode text) offset = true ↔ IsCut text offset := by
  rw [isBoundary_natCast]
  induction text generalizing offset with
  | nil =>
      constructor
      · rintro (rfl | ⟨byte, found, _⟩)
        · exact isCut_zero []
        · simp at found
      · intro cut
        exact Or.inl (Nat.le_zero.mp cut.le_length)
  | cons c rest ih =>
      rcases encodeChar_eq_cons c with ⟨lead, tail, bytes, leads, continues⟩
      have size : c.utf8Size = tail.length + 1 := by
        rw [← String.length_utf8EncodeChar c, bytes, List.length_cons]
      rw [isCut_cons_iff, encode_cons, bytes]
      cases offset with
      | zero => simp [leads.1]
      | succ offset =>
          by_cases inside : offset < tail.length
          · have continued := continues tail[offset] (List.getElem_mem inside)
            have found : (lead :: tail ++ encode rest)[offset + 1]? = some tail[offset] := by
              rw [List.cons_append, List.getElem?_cons_succ, List.getElem?_append_left inside,
                List.getElem?_eq_getElem inside]
            have short : offset + 1 ≠ (lead :: tail ++ encode rest).length := by
              simp
              omega
            rw [found]
            constructor
            · rintro (ends | ⟨byte, same, starts⟩)
              · exact absurd ends short
              · cases same
                rw [continued] at starts
                cases starts
            · rintro (zero | ⟨reached, _⟩)
              · omega
              · omega
          · have shift : (lead :: tail ++ encode rest)[offset + 1]? =
                (encode rest)[offset + 1 - c.utf8Size]? := by
              rw [size, List.cons_append, List.getElem?_cons_succ,
                List.getElem?_append_right (by omega)]
              congr 1
              omega
            have ends : offset + 1 = (lead :: tail ++ encode rest).length ↔
                offset + 1 - c.utf8Size = (encode rest).length := by
              simp
              omega
            rw [shift, ends, ih]
            constructor
            · intro cut
              exact Or.inr ⟨by omega, cut⟩
            · rintro (zero | ⟨_, cut⟩)
              · omega
              · exact cut

theorem checkRange_eq_ok {text : List Char} {start stop : Nat} (hstart : IsCut text start)
    (hstop : IsCut text stop) : checkRange (encode text) start stop = .ok () := by
  have first := hstart.le_length
  have last := hstop.le_length
  rw [checkRange, (isBoundary_encode_iff text start).mpr hstart,
    (isBoundary_encode_iff text stop).mpr hstop]
  simp
  omega

/-- A range that begins and ends between two characters holds exactly the characters inside. -/
theorem slice_encode (front line back : List Char) :
    slice (encode (front ++ line ++ back)) (encode front).length
      (encode (front ++ line)).length = .ok (String.ofList line) := by
  have checked : checkRange (encode (front ++ line ++ back)) (encode front).length
      (encode (front ++ line)).length = .ok () := by
    apply checkRange_eq_ok
    · rw [List.append_assoc]
      exact isCut_append front (line ++ back)
    · exact isCut_append (front ++ line) back
  have bytes : ((encode (front ++ line ++ back)).drop (encode front).length).take
      (encode line).length = encode line := by
    simp
  simp only [slice, checked]
  have length : (((encode (front ++ line)).length : Int) - (encode front).length).toNat =
      (encode line).length := by
    rw [encode_append, List.length_append]
    omega
  rw [Int.toNat_natCast, length, bytes, decode?_encode]

end Slice
end SourceReport

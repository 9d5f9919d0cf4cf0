import Mathlib.Data.List.Basic
import SourceReport.Proofs.Elision
import SourceReport.Proofs.OwnLines

/-!
# Display columns

A character of a line takes as many columns of the terminal as it is wide, after those of the
characters before it. The rows under a source row place their carets and pointers by these columns.
-/

namespace SourceReport

/-!
# Widths of texts
-/

/-- The columns that a text without tabs takes. -/
def displayWidth (text : List Char) : Nat :=
  text.foldr (fun c width => charWidth c + width) 0

theorem displayWidth_append (front back : List Char) :
    displayWidth (front ++ back) = displayWidth front + displayWidth back := by
  induction front with
  | nil => exact (Nat.zero_add _).symm
  | cons c rest ih =>
      have step : ∀ text, displayWidth (c :: text) = charWidth c + displayWidth text := fun _ => rfl
      rw [List.cons_append, step, ih, step, Nat.add_assoc]

theorem displayWidth_blanks (count : Nat) : displayWidth (List.replicate count ' ') = count := by
  induction count with
  | zero => rfl
  | succ count ih =>
      have step : displayWidth (List.replicate (count + 1) ' ') =
          charWidth ' ' + displayWidth (List.replicate count ' ') := rfl
      have blank : charWidth ' ' = 1 := by decide +kernel
      rw [step, ih, blank, Nat.add_comm]

/-- Pieces that take one column each take as many columns as there are pieces. -/
theorem displayWidth_flatMap {piece : Nat → List Char} {columns : List Nat}
    (h : ∀ column ∈ columns, displayWidth (piece column) = 1) :
    displayWidth (columns.flatMap piece) = columns.length := by
  induction columns with
  | nil => rfl
  | cons column rest ih =>
      rw [List.forall_mem_cons] at h
      rw [List.flatMap_cons, displayWidth_append, h.1, ih h.2, List.length_cons, Nat.add_comm]

/-!
# Texts of rows
-/

/-- What events write, without the roles in between. -/
def Event.written (events : List Event) : List Char :=
  (events.filterMap text?).flatMap String.toList

namespace Event

theorem written_append (front back : List Event) :
    written (front ++ back) = written front ++ written back := by
  rw [written, List.filterMap_append, List.flatMap_append]
  rfl

theorem written_write (text : String) (rest : List Event) :
    written (.write text :: rest) = text.toList ++ written rest := rfl

theorem written_flatMap {α : Type} (pieces : List α) (draw : α → List Event) :
    written (pieces.flatMap draw) = pieces.flatMap fun piece => written (draw piece) := by
  induction pieces with
  | nil => rfl
  | cons piece rest ih => rw [List.flatMap_cons, written_append, ih, List.flatMap_cons]

theorem written_piece (piece : Piece) : written [.write piece] = piece.string.toList :=
  List.append_nil _

theorem written_singleton (text : String) : written [.write text] = text.toList :=
  written_piece text

theorem written_inLabel (pencil : Pencil) (style : LabelStyle) (text : String) :
    written (pencil.inLabel style text) = text.toList :=
  List.append_nil _

end Event

/-- What a row writes. -/
def Pencil.text (pencil : Pencil) (padding : Nat) (row : Row) : List Char :=
  Event.written (pencil.row padding row)

theorem toList_repeated (count : Nat) (text : String) :
    (repeated count text).toList = (List.range count).flatMap fun _ => text.toList := by
  rw [repeated, String.toList_join]
  induction count with
  | zero => rfl
  | succ count ih =>
      rw [List.replicate_succ', List.flatMap_append, ih, List.range_succ, List.flatMap_append]
      rfl

/-- All counts together. -/
def sumOf (counts : List Nat) : Nat :=
  counts.foldr (fun count total => count + total) 0

theorem sumOf_cons (count : Nat) (rest : List Nat) :
    sumOf (count :: rest) = count + sumOf rest := rfl

/-- Texts repeated one after the other are one text, repeated as often as all of them. -/
theorem flatMap_repeated (counts : List Nat) (text : String) :
    (counts.flatMap fun count => (repeated count text).toList) =
      (repeated (sumOf counts) text).toList := by
  simp only [toList_repeated]
  induction counts with
  | nil => rfl
  | cons count rest ih =>
      rw [List.flatMap_cons, ih, sumOf_cons, List.range_add, List.flatMap_append,
        List.flatMap_map]

theorem replicate_eq_flatMap (count : Nat) (c : Char) :
    List.replicate count c = (List.range count).flatMap fun _ => [c] := by
  induction count with
  | zero => rfl
  | succ count ih =>
      rw [List.replicate_succ', ih, List.range_succ, List.flatMap_append]
      rfl

namespace Line

/-!
# Columns of characters
-/

/-- The columns that characters take together. -/
def totalWidth (placed : List PlacedChar) : Nat :=
  placed.foldr (fun one width => one.width + width) 0

theorem totalWidth_cons (one : PlacedChar) (rest : List PlacedChar) :
    totalWidth (one :: rest) = one.width + totalWidth rest := rfl

theorem totalWidth_append (front back : List PlacedChar) :
    totalWidth (front ++ back) = totalWidth front + totalWidth back := by
  induction front with
  | nil => exact (Nat.zero_add _).symm
  | cons one rest ih => rw [List.cons_append, totalWidth_cons, ih, totalWidth_cons, Nat.add_assoc]

theorem sumOf_map_width (placed : List PlacedChar) :
    sumOf (placed.map (·.width)) = totalWidth placed := by
  induction placed with
  | nil => rfl
  | cons one rest ih => rw [List.map_cons, sumOf_cons, ih, totalWidth_cons]

/-- The character that takes a column. -/
def occupant? : List PlacedChar → Nat → Option PlacedChar
  | [], _ => none
  | one :: rest, column =>
      if column < one.width then some one else occupant? rest (column - one.width)

theorem occupant?_eq_some_iff {placed : List PlacedChar} {column : Nat} {one : PlacedChar} :
    occupant? placed column = some one ↔
      ∃ front back, placed = front ++ one :: back ∧ totalWidth front ≤ column ∧
        column < totalWidth front + one.width := by
  induction placed generalizing column with
  | nil =>
      constructor
      · intro found
        cases found
      · rintro ⟨front, back, parts, _⟩
        cases front <;> cases parts
  | cons head rest ih =>
      rw [occupant?]
      split
      · rename_i inside
        rw [Option.some_inj]
        constructor
        · rintro rfl
          exact ⟨[], rest, rfl, Nat.zero_le _, Nat.lt_of_lt_of_le inside (Nat.le_add_left _ _)⟩
        · rintro ⟨front, back, parts, reached, _⟩
          cases front with
          | nil => exact (List.cons.inj parts).1
          | cons first others =>
              rw [totalWidth_cons, ← (List.cons.inj parts).1] at reached
              omega
      · rename_i beyond
        rw [ih]
        constructor
        · rintro ⟨front, back, rfl, reached, inside⟩
          refine ⟨head :: front, back, rfl, ?_, ?_⟩
          · rw [totalWidth_cons]
            omega
          · rw [totalWidth_cons]
            omega
        · rintro ⟨front, back, parts, reached, inside⟩
          cases front with
          | nil =>
              rw [(List.cons.inj parts).1] at beyond
              have none : totalWidth [] = 0 := rfl
              omega
          | cons first others =>
              rw [totalWidth_cons, ← (List.cons.inj parts).1] at reached inside
              exact ⟨others, back, (List.cons.inj parts).2, by omega, by omega⟩

/-- Every column of characters is taken by one of them. -/
theorem exists_occupant?_eq {placed : List PlacedChar} {column : Nat}
    (h : column < totalWidth placed) : ∃ one, occupant? placed column = some one := by
  induction placed generalizing column with
  | nil => exact absurd h (Nat.not_lt_zero column)
  | cons head rest ih =>
      rw [totalWidth_cons] at h
      rw [occupant?]
      split
      · exact ⟨head, rfl⟩
      · exact ih (by omega)

/-- Pieces drawn for some characters only are the pieces of these. -/
theorem flatMap_ite_eq (placed : List PlacedChar) (test : PlacedChar → Bool)
    (draw : PlacedChar → List Char) :
    (placed.flatMap fun one => if test one then draw one else []) =
      (placed.filter test).flatMap draw := by
  induction placed with
  | nil => rfl
  | cons one rest ih =>
      rw [List.flatMap_cons, ih, List.filter_cons]
      split
      · rfl
      · rfl

/-- Pieces drawn column by column, character after character, stand in the columns of the
characters. -/
theorem flatMap_eq_columns {placed : List PlacedChar} {draw : PlacedChar → Nat → List Char}
    {piece : Nat → List Char}
    (h : ∀ front one back, placed = front ++ one :: back → ∀ inner < one.width,
      piece (totalWidth front + inner) = draw one inner) :
    (placed.flatMap fun one => (List.range one.width).flatMap (draw one)) =
      (List.range (totalWidth placed)).flatMap piece := by
  induction placed generalizing piece with
  | nil => rfl
  | cons head rest ih =>
      have first : (List.range head.width).flatMap (draw head) =
          (List.range head.width).flatMap piece := by
        apply List.flatMap_congr
        intro inner member
        have this : piece (0 + inner) = draw head inner :=
          h [] head rest rfl inner (List.mem_range.mp member)
        rw [Nat.zero_add] at this
        exact this.symm
      have shifted : ∀ front one back, rest = front ++ one :: back → ∀ inner < one.width,
          piece (head.width + (totalWidth front + inner)) = draw one inner := by
        intro front one back parts inner inside
        have this := h (head :: front) one back (congrArg (head :: ·) parts) inner inside
        rw [totalWidth_cons, Nat.add_assoc] at this
        exact this
      have others : (rest.flatMap fun one => (List.range one.width).flatMap (draw one)) =
          (List.range (totalWidth rest)).flatMap fun column => piece (head.width + column) :=
        ih shifted
      rw [List.flatMap_cons, first, others, totalWidth_cons, List.range_add, List.flatMap_append,
        List.flatMap_map]

/-!
# Columns of a line
-/

/-- A source row shows a character with as many columns as its place says. -/
theorem displayWidth_sourceText {tabWidth byteIndex column : Nat} {line : List Char}
    {one : PlacedChar} (h : one ∈ placeFrom tabWidth byteIndex column line) :
    displayWidth (Pencil.sourceText one).string.toList = one.width := by
  induction line generalizing byteIndex column with
  | nil => cases h
  | cons c rest ih =>
      rcases List.mem_cons.mp h with rfl | later
      · rw [Pencil.sourceText]
        by_cases tab : c = '\t'
        · rw [if_pos tab, Piece.string_blanks, toList_spaces, displayWidth_blanks]
        · rw [if_neg tab, Piece.string_text, String.toList_singleton, widthAt, if_neg tab]
          rfl
      · exact ih later

theorem length_encode (line : List Char) : (Utf8.encode line).length = byteLength line := by
  induction line with
  | nil => rfl
  | cons c rest ih =>
      have step : byteLength (c :: rest) = c.utf8Size + byteLength rest := rfl
      rw [Utf8.encode_cons, List.length_append, String.length_utf8EncodeChar, ih, step]

/-- Places ascend by their first bytes. -/
theorem pairwise_placeFrom (tabWidth byteIndex column : Nat) (line : List Char) :
    (placeFrom tabWidth byteIndex column line).Pairwise fun one next =>
      one.byteIndex < next.byteIndex := by
  induction line generalizing byteIndex column with
  | nil => exact List.Pairwise.nil
  | cons c rest ih =>
      refine List.Pairwise.cons ?_ (ih _ _)
      intro next later
      rcases exists_of_mem_placeFrom later with ⟨front, back, _, index, _⟩
      have positive := c.utf8Size_pos
      show byteIndex < next.byteIndex
      omega

theorem exists_mem_placeFrom (tabWidth byteIndex column : Nat) (front : List Char) (c : Char)
    (back : List Char) :
    ∃ one ∈ placeFrom tabWidth byteIndex column (front ++ c :: back),
      one.char = c ∧ one.byteIndex = byteIndex + (Utf8.encode front).length := by
  induction front generalizing byteIndex column with
  | nil => exact ⟨_, List.mem_cons_self, rfl, rfl⟩
  | cons head rest ih =>
      rcases ih (byteIndex + head.utf8Size) (column + widthAt tabWidth column head) with
        ⟨one, member, same, index⟩
      refine ⟨one, List.mem_cons_of_mem _ member, same, ?_⟩
      rw [index, Utf8.encode_cons, List.length_append, String.length_utf8EncodeChar, Nat.add_assoc]

/-- A character begins at every place between two characters before the end of the line. -/
theorem exists_byteIndex_eq (tabWidth : Nat) {offset : Nat} {line ending : List Char}
    (cut : Utf8.IsCut (line ++ ending) offset) (inside : offset < byteLength line) :
    ∃ one ∈ place tabWidth line, one.byteIndex = offset := by
  rw [← length_encode] at inside
  rcases (Utf8.isCut_append_left_iff ending (Nat.le_of_lt inside)).mp cut with
    ⟨front, back, rfl, length⟩
  cases back with
  | nil =>
      rw [List.append_nil] at inside
      omega
  | cons c rest =>
      rcases exists_mem_placeFrom tabWidth 0 0 front c rest with ⟨one, member, _, index⟩
      exact ⟨one, member, by omega⟩

/-- The characters of a line, and the place just after them. -/
def slots (tabWidth : Nat) (line : List Char) : List PlacedChar :=
  place tabWidth line ++ [placeholder line]

theorem byteIndex_lt {tabWidth : Nat} {line : List Char} {one : PlacedChar}
    (member : one ∈ place tabWidth line) : one.byteIndex < byteLength line := by
  rcases exists_of_mem_placeFrom member with ⟨front, back, parts, index, _⟩
  have positive := one.char.utf8Size_pos
  have total := congrArg (fun text => (Utf8.encode text).length) parts
  simp only [length_encode, Utf8.encode_append, Utf8.encode_cons, List.length_append,
    String.length_utf8EncodeChar] at total index
  omega

theorem pairwise_slots (tabWidth : Nat) (line : List Char) :
    (slots tabWidth line).Pairwise fun one next => one.byteIndex < next.byteIndex := by
  rw [slots, List.pairwise_append]
  refine ⟨pairwise_placeFrom tabWidth 0 0 line, List.pairwise_singleton _ _, ?_⟩
  intro one member next last
  rw [List.mem_singleton.mp last]
  exact byteIndex_lt member

/-!
# Characters before an offset
-/

/-- The characters that begin before an offset. -/
def charsBefore (placed : List PlacedChar) (offset : Int) : List PlacedChar :=
  placed.filter fun one => (one.byteIndex : Int) < offset

theorem charsBefore_of_lt {front back : List PlacedChar} {one : PlacedChar} {offset : Int}
    (ascending : (front ++ one :: back).Pairwise fun one next => one.byteIndex < next.byteIndex)
    (before : (one.byteIndex : Int) < offset) :
    charsBefore (front ++ one :: back) offset = front ++ one :: charsBefore back offset := by
  have earlier : front.filter (fun one => (one.byteIndex : Int) < offset) = front := by
    rw [List.filter_eq_self]
    intro other member
    have order := (List.pairwise_append.mp ascending).2.2 other member one List.mem_cons_self
    rw [decide_eq_true_eq]
    omega
  rw [charsBefore, List.filter_append, earlier, List.filter_cons_of_pos (by simpa using before)]
  rfl

theorem charsBefore_byteIndex {front back : List PlacedChar} {one : PlacedChar}
    (ascending : (front ++ one :: back).Pairwise fun one next => one.byteIndex < next.byteIndex) :
    charsBefore (front ++ one :: back) one.byteIndex = front := by
  rw [List.pairwise_append, List.pairwise_cons] at ascending
  rcases ascending with ⟨_, ⟨later, _⟩, earlier⟩
  have kept : front.filter (fun other => decide ((other.byteIndex : Int) < one.byteIndex)) =
      front := by
    rw [List.filter_eq_self]
    intro other member
    have order := earlier other member one List.mem_cons_self
    rw [decide_eq_true_eq]
    omega
  have dropped : (one :: back).filter
      (fun other => decide ((other.byteIndex : Int) < one.byteIndex)) = [] := by
    rw [List.filter_eq_nil_iff, List.forall_mem_cons]
    refine ⟨by simp, ?_⟩
    intro other member
    have order := later other member
    rw [decide_eq_true_eq]
    omega
  rw [charsBefore, List.filter_append, kept, dropped, List.append_nil]

/-- Of ascending characters, those before an offset are the first ones. -/
theorem charsBefore_eq_takeWhile {placed : List PlacedChar}
    (ascending : placed.Pairwise fun one next => one.byteIndex < next.byteIndex) (offset : Int) :
    charsBefore placed offset = placed.takeWhile fun one => (one.byteIndex : Int) < offset := by
  induction placed with
  | nil => rfl
  | cons head rest ih =>
      by_cases before : (head.byteIndex : Int) < offset
      · rw [← List.nil_append (head :: rest), charsBefore_of_lt ascending before,
          ih (List.pairwise_cons.mp ascending).2, List.nil_append, List.nil_append,
          List.takeWhile_cons_of_pos (by simpa using before)]
      · rw [List.takeWhile_cons_of_neg (by simpa using before), charsBefore,
          List.filter_eq_nil_iff, List.forall_mem_cons]
        refine ⟨by simpa using before, ?_⟩
        intro next later
        have order := (List.pairwise_cons.mp ascending).1 next later
        rw [decide_eq_true_eq]
        omega

end Line
end SourceReport

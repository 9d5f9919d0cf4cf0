import SourceReport.Proofs.CaretRows
import SourceReport.Proofs.Highlights

/-!
# Hanging messages

Below the carets a pointer stands under the start of each label whose message hangs, and the message
begins there too. A pointer takes one column, also under a character that takes none, so each label
that hangs from such a character moves all that is to the right of it.
-/

namespace SourceReport
namespace Line

/-!
# Characters at offsets
-/

/-- A mark starts inside the bytes of a character. -/
def isPointed (hanging : List SingleMark) (one : PlacedChar) : Bool :=
  hanging.any fun mark =>
    one.byteRange.1 ≤ mark.start && mark.start < one.byteRange.2

/-- The column in which the source row shows what stands at an offset. -/
def columnAt (tabWidth : Nat) (line : List Char) (offset : Int) : Nat :=
  displayWidth ((charsBefore (place tabWidth line) offset).flatMap fun one =>
    (Pencil.sourceText one).string.toList)

/-- The characters without a column from which a label hangs, before an offset. -/
def shiftAt (tabWidth : Nat) (line : List Char) (hanging : List SingleMark) (offset : Int) : Nat :=
  ((charsBefore (place tabWidth line) offset).filter fun one =>
    one.width = 0 && isPointed hanging one).length

/-- The column in which a pointer or a message stands for an offset. -/
def hangColumn (tabWidth : Nat) (line : List Char) (hanging : List SingleMark) (offset : Int) :
    Nat :=
  columnAt tabWidth line offset + shiftAt tabWidth line hanging offset

/-- What a column holds left of an offset: a pointer under the start of a hanging label, or a
blank. -/
def barAt (glyphs : Glyphs) (tabWidth : Nat) (line : List Char) (hanging : List SingleMark)
    (stop : Int) (column : Nat) : List Char :=
  if hanging.any fun mark =>
      mark.start < stop && mark.start < byteLength line &&
        column = hangColumn tabWidth line hanging mark.start then
    glyphs.pointer.toList
  else [' ']

/-- Every mark starts between two characters of the text. -/
def StartAtCuts (text : List Char) (marks : List SingleMark) : Prop :=
  ∀ mark ∈ marks, ∃ offset : Nat, mark.start = offset ∧ Utf8.IsCut text offset

/-!
# Characters with their pointers
-/

/-- A character that is one column wide at least if a label hangs from it. -/
def stretch (hanging : List SingleMark) (one : PlacedChar) : PlacedChar :=
  { one with width := if isPointed hanging one then max one.width 1 else one.width }

theorem byteIndex_stretch (hanging : List SingleMark) (one : PlacedChar) :
    (stretch hanging one).byteIndex = one.byteIndex := rfl

theorem isPointed_stretch (hanging : List SingleMark) (one : PlacedChar) :
    isPointed hanging (stretch hanging one) = isPointed hanging one := rfl

theorem charsBefore_stretch (hanging : List SingleMark) (placed : List PlacedChar) (offset : Int) :
    charsBefore (placed.map (stretch hanging)) offset =
      (charsBefore placed offset).map (stretch hanging) := by
  rw [charsBefore, List.filter_map]
  rfl

/-- Stretching widens characters without a column, each by one. -/
theorem totalWidth_stretch (hanging : List SingleMark) (placed : List PlacedChar) :
    totalWidth (placed.map (stretch hanging)) =
      totalWidth placed +
        (placed.filter fun one => one.width = 0 && isPointed hanging one).length := by
  induction placed with
  | nil => rfl
  | cons one rest ih =>
      have width : (stretch hanging one).width =
          if isPointed hanging one then max one.width 1 else one.width := rfl
      rw [List.map_cons, totalWidth_cons, totalWidth_cons, ih, width, List.filter_cons]
      cases pointed : isPointed hanging one with
      | false =>
          rw [if_neg Bool.false_ne_true, Bool.and_false, if_neg Bool.false_ne_true, Nat.add_assoc]
      | true =>
          rw [if_pos rfl, Bool.and_true]
          by_cases none : one.width = 0
          · rw [if_pos (decide_eq_true none), none, List.length_cons]
            omega
          · rw [if_neg (by simpa using none)]
            omega

theorem displayWidth_sourceTexts {tabWidth : Nat} {line : List Char} {placed : List PlacedChar}
    (h : ∀ one ∈ placed, one ∈ place tabWidth line) :
    displayWidth (placed.flatMap fun one => (Pencil.sourceText one).string.toList) =
      totalWidth placed := by
  induction placed with
  | nil => rfl
  | cons one rest ih =>
      rw [List.forall_mem_cons] at h
      rw [List.flatMap_cons, displayWidth_append, displayWidth_sourceText h.1, ih h.2,
        totalWidth_cons]

theorem hangColumn_eq (tabWidth : Nat) (line : List Char) (hanging : List SingleMark)
    (offset : Int) :
    hangColumn tabWidth line hanging offset =
      totalWidth (charsBefore ((place tabWidth line).map (stretch hanging)) offset) := by
  have shown : ∀ one ∈ charsBefore (place tabWidth line) offset, one ∈ place tabWidth line :=
    fun one member => (List.mem_filter.mp member).1
  rw [charsBefore_stretch, totalWidth_stretch, hangColumn, columnAt,
    displayWidth_sourceTexts shown, shiftAt]

theorem pairwise_stretch (tabWidth : Nat) (line : List Char) (hanging : List SingleMark) :
    ((place tabWidth line).map (stretch hanging)).Pairwise fun one next =>
      one.byteIndex < next.byteIndex :=
  List.pairwise_map.mpr (pairwise_placeFrom tabWidth 0 0 line)

variable {tabWidth : Nat} {line : List Char} {hanging : List SingleMark}

/-- The column of a character is the width of the characters before it. -/
theorem hangColumn_byteIndex {front back : List PlacedChar} {one : PlacedChar}
    (parts : (place tabWidth line).map (stretch hanging) = front ++ one :: back) :
    hangColumn tabWidth line hanging one.byteIndex = totalWidth front := by
  have order := pairwise_stretch tabWidth line hanging
  rw [parts] at order
  rw [hangColumn_eq, parts, charsBefore_byteIndex order]

/-- A later offset has a column beyond the character at an earlier one. -/
theorem hangColumn_add_le {one : PlacedChar} {stop : Int}
    (member : one ∈ (place tabWidth line).map (stretch hanging))
    (before : (one.byteIndex : Int) < stop) :
    hangColumn tabWidth line hanging one.byteIndex + one.width ≤
      hangColumn tabWidth line hanging stop := by
  rcases List.append_of_mem member with ⟨front, back, parts⟩
  have order := pairwise_stretch tabWidth line hanging
  rw [parts] at order
  rw [hangColumn_byteIndex parts, hangColumn_eq, parts, charsBefore_of_lt order before,
    totalWidth_append, totalWidth_cons]
  omega

/-!
# Columns of pointers
-/

/-- What a character with its pointer is drawn with, column by column. -/
def pointerPiece (glyphs : Glyphs) (hanging : List SingleMark) (one : PlacedChar) (inner : Nat) :
    List Char :=
  if inner = 0 && isPointed hanging one then glyphs.pointer.toList else [' ']

/-- A label hangs from a character exactly if it starts with the first byte of the character. -/
theorem isPointed_iff {ending : List Char} (planned : StartAtCuts (line ++ ending) hanging)
    {one : PlacedChar} (member : one ∈ place tabWidth line) :
    isPointed hanging one = true ↔ ∃ mark ∈ hanging, mark.start = one.byteIndex := by
  rcases exists_of_mem_placeFrom member with ⟨front, back, parts, index, length⟩
  rw [Nat.zero_add] at index
  have positive := one.char.utf8Size_pos
  rw [isPointed, List.any_eq_true]
  constructor
  · rintro ⟨mark, listed, inside⟩
    rcases planned mark listed with ⟨offset, start, cut⟩
    rw [Bool.and_eq_true, decide_eq_true_eq, decide_eq_true_eq, PlacedChar.byteRange, start,
      length] at inside
    rw [parts, List.append_assoc, List.cons_append] at cut
    have sides := cut.le_or_le
    exact ⟨mark, listed, by omega⟩
  · rintro ⟨mark, listed, start⟩
    refine ⟨mark, listed, ?_⟩
    rw [Bool.and_eq_true, decide_eq_true_eq, decide_eq_true_eq, PlacedChar.byteRange, start, length]
    omega

/-- Two characters whose columns meet are the same, if the second has a pointer. -/
theorem byteIndex_eq_of_column_eq {one other : PlacedChar} {inner : Nat}
    (first : one ∈ (place tabWidth line).map (stretch hanging))
    (second : other ∈ (place tabWidth line).map (stretch hanging))
    (pointed : 0 < other.width) (inside : inner < one.width)
    (same : hangColumn tabWidth line hanging one.byteIndex + inner =
      hangColumn tabWidth line hanging other.byteIndex) : one.byteIndex = other.byteIndex := by
  rcases Nat.lt_trichotomy one.byteIndex other.byteIndex with before | this | after
  · have beyond := hangColumn_add_le first (Int.ofNat_lt.mpr before)
    omega
  · exact this
  · have beyond := hangColumn_add_le second (Int.ofNat_lt.mpr after)
    omega

/-- The character from which a mark hangs. -/
theorem exists_hanging_char (tabWidth : Nat) {ending : List Char}
    (planned : StartAtCuts (line ++ ending) hanging)
    {mark : SingleMark} (listed : mark ∈ hanging) (within : mark.start < byteLength line) :
    ∃ one ∈ place tabWidth line, mark.start = one.byteIndex ∧ 0 < (stretch hanging one).width := by
  rcases planned mark listed with ⟨offset, start, cut⟩
  rcases exists_byteIndex_eq tabWidth cut (by omega) with ⟨one, member, index⟩
  have same : mark.start = one.byteIndex := by omega
  have pointed := (isPointed_iff planned member).mpr ⟨mark, listed, same⟩
  refine ⟨one, member, same, ?_⟩
  rw [stretch, if_pos pointed]
  exact Nat.lt_of_lt_of_le Nat.zero_lt_one (Nat.le_max_right _ _)

/-- A column left of an offset holds what its character is drawn with there. -/
theorem barAt_eq {glyphs : Glyphs} {ending : List Char} {stop : Int}
    (planned : StartAtCuts (line ++ ending) hanging) {front back : List PlacedChar}
    {one : PlacedChar} (parts : (place tabWidth line).map (stretch hanging) = front ++ one :: back)
    (before : (one.byteIndex : Int) < stop) {inner : Nat} (inside : inner < one.width) :
    barAt glyphs tabWidth line hanging stop (totalWidth front + inner) =
      pointerPiece glyphs hanging one inner := by
  have member : one ∈ (place tabWidth line).map (stretch hanging) := by
    rw [parts]
    exact List.mem_append_right _ List.mem_cons_self
  have column := hangColumn_byteIndex parts
  rcases List.mem_map.mp member with ⟨origin, placed, rfl⟩
  rw [byteIndex_stretch] at column
  rw [barAt, pointerPiece, ← column]
  congr 1
  apply propext
  rw [List.any_eq_true, Bool.and_eq_true, decide_eq_true_eq, isPointed_stretch,
    isPointed_iff planned placed]
  simp only [Bool.and_eq_true, decide_eq_true_eq]
  constructor
  · rintro ⟨mark, listed, ⟨_, within⟩, same⟩
    rcases exists_hanging_char tabWidth planned listed within with
      ⟨other, drawn, start, wide⟩
    rw [start] at same
    have index := byteIndex_eq_of_column_eq member (List.mem_map_of_mem drawn) wide inside same
    rw [byteIndex_stretch, byteIndex_stretch] at index
    rw [index] at same ⊢
    exact ⟨by omega, mark, listed, start⟩
  · rintro ⟨rfl, mark, listed, start⟩
    rw [byteIndex_stretch] at before
    refine ⟨mark, listed, ⟨?_, ?_⟩, ?_⟩
    · rw [start]
      exact before
    · rw [start]
      exact Int.ofNat_lt.mpr (byteIndex_lt placed)
    · rw [start, Nat.add_zero]

/-- The characters before an offset are drawn with what the columns before it hold. -/
theorem flatMap_pointerPiece (glyphs : Glyphs) {ending : List Char} (stop : Int)
    (planned : StartAtCuts (line ++ ending) hanging) :
    ((charsBefore (place tabWidth line) stop).flatMap fun one =>
        (List.range (stretch hanging one).width).flatMap (pointerPiece glyphs hanging one)) =
      (List.range (hangColumn tabWidth line hanging stop)).flatMap
        (barAt glyphs tabWidth line hanging stop) := by
  have first : charsBefore ((place tabWidth line).map (stretch hanging)) stop <+:
      (place tabWidth line).map (stretch hanging) := by
    rw [charsBefore_eq_takeWhile (pairwise_stretch tabWidth line hanging)]
    exact List.takeWhile_prefix _
  rcases first with ⟨rest, whole⟩
  have pieces : ∀ front one back,
      charsBefore ((place tabWidth line).map (stretch hanging)) stop = front ++ one :: back →
        ∀ inner < one.width, barAt glyphs tabWidth line hanging stop (totalWidth front + inner) =
          pointerPiece glyphs hanging one inner := by
    intro front one back parts inner inside
    have listed : one ∈ charsBefore ((place tabWidth line).map (stretch hanging)) stop := by
      rw [parts]
      exact List.mem_append_right _ List.mem_cons_self
    have before := of_decide_eq_true (List.mem_filter.mp listed).2
    rw [parts, List.append_assoc, List.cons_append] at whole
    exact barAt_eq planned whole.symm before inside
  rw [hangColumn_eq, ← flatMap_eq_columns pieces, charsBefore_stretch, List.flatMap_map]
  rfl

/-!
# Texts of pointers
-/

theorem isSome_style_pointerCell (reach : Int) (hanging : List SingleMark) (one : PlacedChar) :
    (pointerCell reach hanging one).style.isSome = isPointed hanging one := by
  have style : (pointerCell reach hanging one).style =
      LabelStyle.strongest? ((hanging.filter fun mark =>
        one.byteRange.1 ≤ mark.start && mark.start < one.byteRange.2).map (·.style)) := rfl
  rw [Bool.eq_iff_iff, ← not_iff_not, Option.not_isSome_iff_eq_none, style,
    LabelStyle.strongest?_eq_none_iff, List.map_eq_nil_iff, List.filter_eq_nil_iff, isPointed,
    List.any_eq_true]
  simp only [not_exists, not_and]

theorem written_blanks (count : Nat) :
    Event.written [.write (.blanks count)] = List.replicate count ' ' := by
  rw [Event.written_piece, Piece.string_blanks, toList_spaces]

/-- Beside a pointer the blanks of a character are those that its pointer leaves. -/
theorem written_blanksBeside (width : Nat) :
    Event.written (if 1 < width then [.write (.blanks (width - 1))] else []) =
      List.replicate (width - 1) ' ' := by
  split
  · exact written_blanks (width - 1)
  · rename_i narrow
    rw [Nat.sub_eq_zero_of_le (Nat.le_of_not_lt narrow)]
    rfl

theorem written_pointerCell (pencil : Pencil) {reach : Int} {one : PlacedChar}
    (near : isPointed hanging one = true → (one.byteIndex : Int) ≤ reach) :
    Event.written (pencil.pointerCell (pointerCell reach hanging one)) =
      if (one.byteIndex : Int) ≤ reach then
        (List.range (stretch hanging one).width).flatMap (pointerPiece pencil.glyphs hanging one)
      else [] := by
  have drawn := isSome_style_pointerCell reach hanging one
  have shown : (pointerCell reach hanging one).drawn = decide ((one.byteIndex : Int) ≤ reach) := rfl
  have own : (pointerCell reach hanging one).width = one.width := rfl
  have width : (stretch hanging one).width =
      if isPointed hanging one then max one.width 1 else one.width := rfl
  rw [Pencil.pointerCell, shown, own, width]
  cases pointed : isPointed hanging one with
  | true =>
      rw [pointed] at drawn
      rcases Option.isSome_iff_exists.mp drawn with ⟨style, found⟩
      have columns : max one.width 1 = 1 + (one.width - 1) := by omega
      simp only [found, near pointed, decide_true, Bool.true_and, decide_eq_true_eq, if_true]
      rw [Event.written_append, written_blanksBeside, columns, List.range_add,
        List.flatMap_append, List.flatMap_map, replicate_eq_flatMap]
      have glyph : pointerPiece pencil.glyphs hanging one 0 = pencil.glyphs.pointer.toList := by
        rw [pointerPiece, pointed]
        rfl
      have blank : ∀ inner, pointerPiece pencil.glyphs hanging one (1 + inner) = [' '] := by
        intro inner
        rw [pointerPiece, Nat.add_comm]
        rfl
      have first : (List.range 1).flatMap (pointerPiece pencil.glyphs hanging one) =
          pencil.glyphs.pointer.toList := (List.append_nil _).trans glyph
      simp only [blank]
      rw [Event.written_inLabel, first]
  | false =>
      rw [pointed] at drawn
      have bare := Option.not_isSome_iff_eq_none.mp (Bool.eq_false_iff.mp drawn)
      have blank : pointerPiece pencil.glyphs hanging one = fun _ => [' '] := by
        funext inner
        rw [pointerPiece, pointed, Bool.and_false]
        rfl
      rw [bare, if_neg Bool.false_ne_true, blank]
      by_cases reached : (one.byteIndex : Int) ≤ reach
      · simp only [decide_eq_true reached, if_true, if_pos reached]
        rw [written_blanks, replicate_eq_flatMap]
      · simp only [decide_eq_false reached, Bool.false_eq_true, if_false, if_neg reached]
        rfl

/-- The pointers of a line reach as far as the mark that starts last. -/
theorem written_pointerCells (pencil : Pencil) {reach : Int}
    (near : ∀ mark ∈ hanging, mark.start ≤ reach) (placed : List PlacedChar) :
    Event.written ((pointerCells reach hanging placed).flatMap pencil.pointerCell) =
      (charsBefore placed (reach + 1)).flatMap fun one =>
        (List.range (stretch hanging one).width).flatMap
          (pointerPiece pencil.glyphs hanging one) := by
  have pointed : ∀ one, isPointed hanging one = true → (one.byteIndex : Int) ≤ reach := by
    intro one pointed
    rcases List.any_eq_true.mp pointed with ⟨mark, listed, inside⟩
    have start := of_decide_eq_true (Bool.and_eq_true_iff.mp inside).1
    exact Int.le_trans start (near mark listed)
  have test : ∀ one : PlacedChar, ((one.byteIndex : Int) ≤ reach) =
      (decide ((one.byteIndex : Int) < reach + 1) = true) := by
    intro one
    rw [decide_eq_true_eq, Int.lt_add_one_iff]
  rw [pointerCells, List.flatMap_map, Event.written_flatMap]
  simp only [written_pointerCell pencil (pointed _), test]
  rw [flatMap_ite_eq, charsBefore]

/-!
# The rows of hanging messages
-/

theorem mem_of_mem_hangingMarks {marks : List SingleMark} {mark : SingleMark}
    (h : mark ∈ hangingMarks marks) : mark ∈ marks := by
  rcases List.mem_map.mp h with ⟨entry, listed, rfl⟩
  exact List.fst_mem_of_mem_zipIdx (List.mem_filter.mp listed).1

theorem start_le_maxStart {marks : List SingleMark} {mark : SingleMark} (h : mark ∈ marks) :
    mark.start ≤ maxStart marks := by
  rw [maxStart, le_foldl_max_iff]
  exact Or.inr ⟨mark.start, List.mem_map_of_mem h, Int.le_refl _⟩

/-- The rows of hanging messages: the row of the pointers, and below it a row for each message. -/
structure HangsBelow (pencil : Pencil) (padding tabWidth : Nat) (line : List Char)
    (marks : List SingleMark) (gutter : List GutterCell) (pointers : List PointerCell)
    (cells : SingleMark → List PointerCell) : Prop where
  pointers_eq : pencil.text padding (.pointers gutter pointers) =
    Event.written (pencil.leftSide padding gutter) ++
      ' ' :: ((List.range
        (hangColumn tabWidth line (hangingMarks marks) (maxStart marks + 1))).flatMap
          (barAt pencil.glyphs tabWidth line (hangingMarks marks) (maxStart marks + 1))) ++ ['\n']
  reached : ∀ mark ∈ hangingMarks marks, mark.start < byteLength line →
    hangColumn tabWidth line (hangingMarks marks) mark.start <
      hangColumn tabWidth line (hangingMarks marks) (maxStart marks + 1)
  message_eq : ∀ mark ∈ hangingMarks marks,
    pencil.text padding (.hanging gutter (cells mark) mark.style mark.message) =
      Event.written (pencil.leftSide padding gutter) ++
        ' ' :: ((List.range (hangColumn tabWidth line (hangingMarks marks) mark.start)).flatMap
          (barAt pencil.glyphs tabWidth line (hangingMarks marks) mark.start) ++
            mark.message.toList) ++ ['\n']
  column_eq : ∀ (stop : Int) (column : Nat), displayWidth ((List.range column).flatMap
    (barAt pencil.glyphs tabWidth line (hangingMarks marks) stop)) = column
  under_iff : ∀ offset : Int,
    hangColumn tabWidth line (hangingMarks marks) offset = columnAt tabWidth line offset ↔
      ∀ one ∈ place tabWidth line, (one.byteIndex : Int) < offset → one.width = 0 →
        ∀ mark ∈ hangingMarks marks, mark.start ≠ one.byteIndex

theorem text_pointers (pencil : Pencil) (padding : Nat) (gutter : List GutterCell)
    {ending : List Char} {reach : Int} (planned : StartAtCuts (line ++ ending) hanging)
    (near : ∀ mark ∈ hanging, mark.start ≤ reach) :
    pencil.text padding (.pointers gutter (pointerCells reach hanging (place tabWidth line))) =
      Event.written (pencil.leftSide padding gutter) ++
        ' ' :: ((List.range (hangColumn tabWidth line hanging (reach + 1))).flatMap
          (barAt pencil.glyphs tabWidth line hanging (reach + 1))) ++ ['\n'] := by
  rw [Pencil.text, Pencil.row, Pencil.content, Event.written_append, Event.written_append,
    Event.written_write, written_pointerCells pencil near,
    flatMap_pointerPiece pencil.glyphs (reach + 1) planned]
  rfl

theorem text_hangingRow (pencil : Pencil) (padding : Nat) (gutter : List GutterCell)
    {ending : List Char} {reach : Int} (planned : StartAtCuts (line ++ ending) hanging)
    (near : ∀ mark ∈ hanging, mark.start ≤ reach) {mark : SingleMark} (listed : mark ∈ hanging) :
    pencil.text padding (hangingRow gutter reach hanging (place tabWidth line) mark) =
      Event.written (pencil.leftSide padding gutter) ++
        ' ' :: ((List.range (hangColumn tabWidth line hanging mark.start)).flatMap
          (barAt pencil.glyphs tabWidth line hanging mark.start) ++ mark.message.toList) ++
            ['\n'] := by
  have within := near mark listed
  have first : charsBefore (charsBefore (place tabWidth line) mark.start) (reach + 1) =
      charsBefore (place tabWidth line) mark.start := by
    apply List.filter_eq_self.mpr
    intro one member
    have before := of_decide_eq_true (List.mem_filter.mp member).2
    rw [decide_eq_true_eq]
    omega
  have taken : (place tabWidth line).takeWhile (fun one => (one.byteIndex : Int) < mark.start) =
      charsBefore (place tabWidth line) mark.start :=
    (charsBefore_eq_takeWhile (pairwise_placeFrom tabWidth 0 0 line) mark.start).symm
  rw [hangingRow, taken, Pencil.text, Pencil.row, Pencil.content, Event.written_append,
    Event.written_append, Event.written_append, Event.written_write,
    written_pointerCells pencil near, first,
    flatMap_pointerPiece pencil.glyphs mark.start planned, Event.written_inLabel,
    List.append_assoc (Event.written _)]
  rfl

theorem shiftAt_eq_zero_iff {ending : List Char} (planned : StartAtCuts (line ++ ending) hanging)
    (offset : Int) :
    shiftAt tabWidth line hanging offset = 0 ↔
      ∀ one ∈ place tabWidth line, (one.byteIndex : Int) < offset → one.width = 0 →
        ∀ mark ∈ hanging, mark.start ≠ one.byteIndex := by
  rw [shiftAt, List.length_eq_zero_iff, List.filter_eq_nil_iff]
  constructor
  · intro unshifted one member before bare mark listed start
    apply unshifted one (List.mem_filter.mpr ⟨member, decide_eq_true before⟩)
    rw [Bool.and_eq_true, decide_eq_true_eq, isPointed_iff planned member]
    exact ⟨bare, mark, listed, start⟩
  · intro apart one listed both
    rcases List.mem_filter.mp listed with ⟨member, before⟩
    rw [Bool.and_eq_true, decide_eq_true_eq, isPointed_iff planned member] at both
    rcases both with ⟨bare, mark, hangs, start⟩
    exact apart one member (of_decide_eq_true before) bare mark hangs start

theorem displayWidth_barAt {glyphs : Glyphs} (pointer : displayWidth glyphs.pointer.toList = 1)
    (tabWidth : Nat) (line : List Char) (hanging : List SingleMark) (stop : Int) (column : Nat) :
    displayWidth (barAt glyphs tabWidth line hanging stop column) = 1 := by
  rw [barAt]
  split
  · exact pointer
  · exact displayWidth_blanks 1

theorem hangsBelow (pencil : Pencil) (padding tabWidth : Nat) {line ending : List Char}
    {marks : List SingleMark} (gutter : List GutterCell)
    (planned : StartAtCuts (line ++ ending) marks)
    (pointer : displayWidth pencil.glyphs.pointer.toList = 1) :
    HangsBelow pencil padding tabWidth line marks gutter
      (pointerCells (maxStart marks) (hangingMarks marks) (place tabWidth line))
      (fun mark => pointerCells (maxStart marks) (hangingMarks marks)
        ((place tabWidth line).takeWhile fun one => (one.byteIndex : Int) < mark.start)) := by
  have cuts : StartAtCuts (line ++ ending) (hangingMarks marks) :=
    fun mark listed => planned mark (mem_of_mem_hangingMarks listed)
  have near : ∀ mark ∈ hangingMarks marks, mark.start ≤ maxStart marks :=
    fun mark listed => start_le_maxStart (mem_of_mem_hangingMarks listed)
  constructor
  · exact text_pointers pencil padding gutter cuts near
  · intro mark listed within
    rcases exists_hanging_char tabWidth cuts listed within with
      ⟨one, member, start, wide⟩
    have last := near mark listed
    have drawn : stretch (hangingMarks marks) one ∈
        (place tabWidth line).map (stretch (hangingMarks marks)) := List.mem_map_of_mem member
    have early : ((stretch (hangingMarks marks) one).byteIndex : Int) < maxStart marks + 1 := by
      rw [byteIndex_stretch]
      omega
    have beyond := hangColumn_add_le drawn early
    rw [byteIndex_stretch, ← start] at beyond
    omega
  · intro mark listed
    exact text_hangingRow pencil padding gutter cuts near listed
  · intro stop column
    rw [displayWidth_flatMap fun next _ =>
      displayWidth_barAt pointer tabWidth line (hangingMarks marks) stop next, List.length_range]
  · intro offset
    rw [← shiftAt_eq_zero_iff cuts offset, hangColumn]
    omega

/-- If messages hang, their rows follow the source row and the carets. -/
theorem exists_hanging_rows_eq (tabWidth : Nat) (number : Int) (text : String)
    {marks : List SingleMark} (columns : Nat) (entries : List BracketEntry)
    (hangs : hangingMarks marks ≠ []) :
    ∃ source carets below, rows tabWidth number text marks columns entries =
      source :: carets ::
        .pointers (Gutter.ofLine entries columns)
            (pointerCells (maxStart marks) (hangingMarks marks)
              (place tabWidth (trimTrailing text.toList))) ::
          ((hangingMarks marks).reverse.map
            (hangingRow (Gutter.ofLine entries columns) (maxStart marks) (hangingMarks marks)
              (place tabWidth (trimTrailing text.toList)))) ++ below := by
  have marked : marks ≠ [] := by
    intro empty
    rw [empty] at hangs
    exact hangs rfl
  rw [rows_eq tabWidth number text columns entries marked, hangingRows, if_neg hangs]
  exact ⟨_, _, _, rfl⟩

/-- The rows of a line whose messages hang below it. -/
def DrawsHanging (pencil : Pencil) (padding tabWidth : Nat) (line : List Char)
    (marks : List SingleMark) (rows : List Row) : Prop :=
  ∃ source carets gutter pointers cells below,
    rows = source :: carets :: .pointers gutter pointers ::
      ((hangingMarks marks).reverse.map fun mark =>
        .hanging gutter (cells mark) mark.style mark.message) ++ below ∧
    HangsBelow pencil padding tabWidth line marks gutter pointers cells

theorem drawsHanging (pencil : Pencil) (padding tabWidth : Nat) (number : Int) (text : String)
    {marks : List SingleMark} (columns : Nat) (entries : List BracketEntry)
    (planned : StartAtCuts text.toList marks) (hangs : hangingMarks marks ≠ [])
    (pointer : displayWidth pencil.glyphs.pointer.toList = 1) :
    DrawsHanging pencil padding tabWidth (trimTrailing text.toList) marks
      (rows tabWidth number text marks columns entries) := by
  rcases exists_eq_trimTrailing_append text.toList with ⟨ending, whole⟩
  rw [whole] at planned
  rcases exists_hanging_rows_eq tabWidth number text columns entries hangs with
    ⟨source, carets, below, drawn⟩
  exact ⟨source, carets, _, _, _, below, drawn,
    hangsBelow pencil padding tabWidth _ planned pointer⟩

end Line

/-!
# Planned marks
-/

namespace FileRecord

variable {record : FileRecord} {labels : List Label}

/-- The marks that are planned for a line start between two of its characters. -/
theorem startAtCuts_marksAt (options : Options) (first : Int)
    (fits : ∀ label ∈ labels, label.FitsIn record) (i : Nat) :
    Line.StartAtCuts (record.wholeLine i) (record.marksAt options first labels i) := by
  intro mark listed
  rcases mem_marksAt_iff.mp listed with ⟨label, given, _, rfl, rfl⟩
  rcases record.exists_cut_on_line (fits label given) with ⟨reach, start, cut⟩
  refine ⟨reach, ?_, cut⟩
  show (label.start : Int) - record.startOf (record.lineAt label.start) = reach
  omega

theorem drawsHanging_lineRows (pencil : Pencil) (padding : Nat) (options : Options) (first : Int)
    (fits : ∀ label ∈ labels, label.FitsIn record) {i : Nat}
    (hangs : Line.hangingMarks (record.marksAt options first labels i) ≠ [])
    (pointer : displayWidth pencil.glyphs.pointer.toList = 1) :
    Line.DrawsHanging pencil padding options.tabWidth (Line.trimTrailing (record.lineText i))
      (record.marksAt options first labels i) (record.lineRows options first labels i) := by
  have planned := startAtCuts_marksAt options first fits i
  rw [← String.toList_ofList (l := record.wholeLine i)] at planned
  have drawn := Line.drawsHanging pencil padding options.tabWidth (first + i)
    (String.ofList (record.wholeLine i)) (record.columns options first labels)
    (record.entriesAt options first labels i) planned hangs pointer
  rw [String.toList_ofList, trimTrailing_wholeLine] at drawn
  rw [lineRows_eq_rows_wholeLine]
  exact drawn

end FileRecord

/-!
# The rows of hanging messages in a report
-/

namespace Line

/-- Messages hang in the columns of what they annotate, and further right by one column for each
character without a column from which another message hangs before. The lines of a snippet are drawn
like that for any labels that fit in the file. -/
theorem hanging_rows_exact (pencil : Pencil) (padding tabWidth : Nat) (number : Int)
    (text : String) (marks : List SingleMark) (columns : Nat) (entries : List BracketEntry)
    (planned : StartAtCuts text.toList marks) (hangs : hangingMarks marks ≠ [])
    (pointer : displayWidth pencil.glyphs.pointer.toList = 1) :
    DrawsHanging pencil padding tabWidth (trimTrailing text.toList) marks
        (rows tabWidth number text marks columns entries) ∧
      ∀ (record : FileRecord) (options : Options) (first : Int) (labels : List Label) (i : Nat),
        (∀ label ∈ labels, label.FitsIn record) →
          hangingMarks (record.marksAt options first labels i) ≠ [] →
            DrawsHanging pencil padding options.tabWidth (trimTrailing (record.lineText i))
              (record.marksAt options first labels i) (record.lineRows options first labels i) :=
  ⟨drawsHanging pencil padding tabWidth number text columns entries planned hangs pointer,
    fun _ options first _ _ fits hanging =>
      FileRecord.drawsHanging_lineRows pencil padding options first fits hanging pointer⟩

namespace Wide

theorem startAtCuts : StartAtCuts text.toList marks := by
  rw [StartAtCuts, marks, List.forall_mem_cons, List.forall_mem_singleton]
  exact ⟨⟨1, rfl, ['\t'], _, rfl, rfl⟩, ⟨3, rfl, ['\t', 'é'], _, rfl, rfl⟩⟩

end Wide

theorem hanging_rows_exact_wide :
    StartAtCuts Wide.text.toList Wide.marks ∧ hangingMarks Wide.marks ≠ [] ∧
      displayWidth Wide.pencil.glyphs.pointer.toList = 1 ∧
      DrawsHanging Wide.pencil 1 4 (trimTrailing Wide.text.toList) Wide.marks
        (rows 4 1 Wide.text Wide.marks 0 []) :=
  ⟨Wide.startAtCuts, by decide, by decide +kernel,
    (hanging_rows_exact Wide.pencil 1 4 1 Wide.text Wide.marks 0 [] Wide.startAtCuts (by decide)
      (by decide +kernel)).1⟩

namespace Accents

/-- A letter with an accent that takes no column of its own, and two letters. -/
def text : String := "e\u0301xy\n"

def marks : List SingleMark :=
  [⟨.secondary, 1, 3, "first"⟩, ⟨.secondary, 3, 4, "second"⟩, ⟨.primary, 4, 5, "third"⟩]

end Accents

/-- The second message annotates the letter in column 1. It hangs in column 2, since the first one
hangs from the accent. -/
theorem hanging_rows_shifted_accents :
    columnAt 4 (trimTrailing Accents.text.toList) 3 = 1 ∧
      ((rows 4 1 Accents.text Accents.marks 0 []).map (Wide.pencil.text 1))[3]? =
        some (Event.written (Wide.pencil.leftSide 1 []) ++ ' ' :: [' ', '│'] ++
          "second".toList ++ ['\n']) := by
  decide +kernel

end Line

end SourceReport

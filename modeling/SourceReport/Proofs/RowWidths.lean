import SourceReport.Proofs.DisplayColumns

/-!
# Widths of left sides

With glyphs of one column every gutter cell is two columns wide. The run of a bracket row begins
right after the gutter, and the text of a source row one column further right, if the number of its
line fits into the padding.
-/

namespace SourceReport

/-- The border takes one column, and so does each piece that brackets are drawn with. -/
structure Glyphs.AreNarrow (glyphs : Glyphs) : Prop where
  border : displayWidth glyphs.border.toList = 1
  bar : displayWidth glyphs.bar.toList = 1
  topCorner : displayWidth glyphs.topCorner.toList = 1
  topStroke : displayWidth glyphs.topStroke.toList = 1
  bottomCorner : displayWidth glyphs.bottomCorner.toList = 1
  bottomStroke : displayWidth glyphs.bottomStroke.toList = 1
  primaryBracketStart : displayWidth glyphs.primaryBracketStart.toList = 1
  secondaryBracketStart : displayWidth glyphs.secondaryBracketStart.toList = 1

theorem Glyphs.areNarrow_ofSet (set : GlyphSet) : (ofSet set).AreNarrow := by
  cases set with
  | boxDrawing => constructor <;> decide +kernel
  | ascii => constructor <;> decide +kernel

/-!
# Widths of numbers
-/

theorem displayWidth_of_forall {text : List Char} (h : ∀ c ∈ text, charWidth c = 1) :
    displayWidth text = text.length := by
  induction text with
  | nil => rfl
  | cons c rest ih =>
      rw [List.forall_mem_cons] at h
      have step : displayWidth (c :: rest) = charWidth c + displayWidth rest := rfl
      rw [step, h.1, ih h.2, List.length_cons, Nat.add_comm]

theorem charWidth_of_isDigit {c : Char} (h : c.isDigit = true) : charWidth c = 1 := by
  have digits : ∀ n < 10, charWidth (Char.ofNat (48 + n)) = 1 := by decide +kernel
  rw [Char.isDigit, Bool.and_eq_true, decide_eq_true_eq, decide_eq_true_eq] at h
  have low : 48 ≤ c.toNat := h.1
  have high : c.toNat ≤ 57 := h.2
  have this := digits (c.toNat - 48) (by omega)
  rw [Nat.add_sub_cancel' low, Char.ofNat_toNat] at this
  exact this

theorem displayWidth_natCast (n : Nat) : displayWidth (toString n).toList = (toString n).length := by
  rw [← String.length_toList]
  apply displayWidth_of_forall
  intro c member
  rw [Nat.toString_eq_repr, Nat.toList_repr] at member
  exact charWidth_of_isDigit (Nat.isDigit_of_mem_toDigits (by decide) (by decide) member)

/-- A number takes one column for each of its digits and for its sign. -/
theorem displayWidth_toString (number : Int) :
    displayWidth (toString number).toList = Plan.countDigits number := by
  cases number with
  | ofNat n => exact displayWidth_natCast n
  | negSucc n =>
      have minus : displayWidth "-".toList = "-".length := by decide +kernel
      show displayWidth ("-" ++ toString (n + 1)).toList = ("-" ++ toString (n + 1)).length
      rw [String.toList_append, displayWidth_append, minus, displayWidth_natCast,
        String.length_append]

namespace Pencil

variable {pencil : Pencil}

/-!
# The left side of a row
-/

theorem displayWidth_outerGutter (padding : Nat) :
    displayWidth (Event.written (outerGutter padding)) = padding + 1 := by
  have blank : displayWidth " ".toList = 1 := by decide +kernel
  rw [outerGutter, Event.written_append, displayWidth_append, Event.written_singleton, blank]
  split
  · rw [Event.written_piece, Piece.string_blanks, toList_spaces, displayWidth_blanks]
  · rename_i none
    rw [Nat.le_zero.mp (Nat.le_of_not_lt none)]
    rfl

theorem written_border (pencil : Pencil) :
    Event.written pencil.border = pencil.glyphs.border.toList :=
  List.append_nil _

theorem displayWidth_stroke (narrow : pencil.glyphs.AreNarrow) (stop : BracketEnd) :
    displayWidth (pencil.stroke stop).toList = 1 := by
  cases stop with
  | top => exact narrow.topStroke
  | bottom => exact narrow.bottomStroke

theorem displayWidth_corner (narrow : pencil.glyphs.AreNarrow) (stop : BracketEnd) :
    displayWidth (pencil.corner stop).toList = 1 := by
  cases stop with
  | top => exact narrow.topCorner
  | bottom => exact narrow.bottomCorner

theorem displayWidth_bracketCaret (narrow : pencil.glyphs.AreNarrow) (style : LabelStyle) :
    displayWidth (pencil.bracketCaret style).toList = 1 := by
  cases style with
  | primary => exact narrow.primaryBracketStart
  | secondary => exact narrow.secondaryBracketStart

/-- The run of a bracket takes as many columns as it has strokes. -/
theorem displayWidth_strokes (narrow : pencil.glyphs.AreNarrow) (stop : BracketEnd) (width : Nat) :
    displayWidth (repeated width (pencil.stroke stop)).toList = width := by
  rw [toList_repeated, displayWidth_flatMap fun _ _ => displayWidth_stroke narrow stop,
    List.length_range]

theorem displayWidth_gutterCell (narrow : pencil.glyphs.AreNarrow) (cell : GutterCell) :
    displayWidth (Event.written (pencil.gutterCell cell)) = 2 := by
  have blank : displayWidth " ".toList = 1 := by decide +kernel
  cases cell with
  | blank => exact displayWidth_blanks 2
  | bar style =>
      rw [gutterCell, Event.written_write, Event.written_inLabel, displayWidth_append, blank,
        narrow.bar]
  | corner stop style =>
      rw [gutterCell, Event.written_write, Event.written_inLabel, displayWidth_append, blank,
        displayWidth_corner narrow]
  | run stop style =>
      have strokes : Event.written (pencil.gutterCell (.run stop style)) =
          (repeated 2 (pencil.stroke stop)).toList := List.append_nil _
      rw [strokes, displayWidth_strokes narrow]
  | crossing under style =>
      rw [gutterCell, Event.written_append, Event.written_inLabel, Event.written_inLabel,
        displayWidth_append, narrow.topStroke, narrow.bar]

theorem displayWidth_gutter (narrow : pencil.glyphs.AreNarrow) (cells : List GutterCell) :
    displayWidth (Event.written (pencil.gutter cells)) = 2 * cells.length := by
  induction cells with
  | nil => rfl
  | cons cell rest ih =>
      have step : pencil.gutter (cell :: rest) = pencil.gutterCell cell ++ pencil.gutter rest := rfl
      rw [step, Event.written_append, displayWidth_append, displayWidth_gutterCell narrow, ih,
        List.length_cons, Nat.mul_succ, Nat.add_comm]

theorem displayWidth_leftSide (narrow : pencil.glyphs.AreNarrow) (padding : Nat)
    (cells : List GutterCell) :
    displayWidth (Event.written (pencil.leftSide padding cells)) =
      padding + 2 + 2 * cells.length := by
  rw [leftSide, Event.written_append, Event.written_append, displayWidth_append,
    displayWidth_append, displayWidth_outerGutter, written_border, narrow.border,
    displayWidth_gutter narrow]

theorem displayWidth_numbered (pencil : Pencil) {padding : Nat} {number : Int}
    (fits : Plan.countDigits number ≤ padding) :
    displayWidth (Event.written (pencil.numbered padding number)) = padding + 1 := by
  have blank : displayWidth " ".toList = 1 := by decide +kernel
  have text : Event.written (pencil.numbered padding number) =
      (spaces (padding - (toString number).length)).toList ++ (toString number).toList ++
        " ".toList := by
    rw [numbered, Event.written_append, Event.written_singleton, ← String.toList_append]
    exact congrArg (· ++ _) (List.append_nil _)
  rw [text, displayWidth_append, displayWidth_append, blank, toList_spaces, displayWidth_blanks,
    displayWidth_toString, Plan.countDigits]
  exact congrArg (· + 1) (Nat.sub_add_cancel fits)

/-- The text of a source row begins one column behind the left side of the rows below it. -/
theorem displayWidth_sourceSide (narrow : pencil.glyphs.AreNarrow) {padding : Nat} {number : Int}
    (fits : Plan.countDigits number ≤ padding) {cells others : List GutterCell}
    (length : cells.length = others.length) :
    displayWidth (Event.written (pencil.sourceSide padding number cells)) =
      displayWidth (Event.written (pencil.leftSide padding others)) + 1 := by
  have blank : displayWidth " ".toList = 1 := by decide +kernel
  rw [sourceSide, Event.written_append, Event.written_append, Event.written_append,
    displayWidth_append, displayWidth_append, displayWidth_append, Event.written_singleton, blank,
    displayWidth_numbered pencil fits, written_border, narrow.border, displayWidth_gutter narrow,
    displayWidth_leftSide narrow, length]

/-!
# Bracket rows
-/

/-- What a bracket row writes before its caret. -/
def beforeCaret (pencil : Pencil) (padding : Nat) (cells : List GutterCell) (stop : BracketEnd)
    (width : Nat) : List Char :=
  Event.written (pencil.leftSide padding cells) ++
    (repeated width (pencil.stroke stop)).toList

theorem displayWidth_beforeCaret (narrow : pencil.glyphs.AreNarrow) (padding : Nat)
    (cells : List GutterCell) (stop : BracketEnd) (width : Nat) :
    displayWidth (pencil.beforeCaret padding cells stop width) =
      displayWidth (Event.written (pencil.leftSide padding cells)) + width := by
  rw [beforeCaret, displayWidth_append, displayWidth_strokes narrow]

theorem written_strokes (pencil : Pencil) (stop : BracketEnd) (run : List Nat) :
    Event.written (run.map fun width => .write (.repeated width (pencil.stroke stop))) =
      (repeated (sumOf run) (pencil.stroke stop)).toList := by
  rw [← flatMap_repeated, List.map_eq_flatMap, Event.written_flatMap]
  simp only [Event.written_piece]
  rfl

theorem written_bracketRun (pencil : Pencil) (stop : BracketEnd) (style : LabelStyle)
    (run : List Nat) (message : String) :
    Event.written (pencil.bracketRun stop style run message) =
      (repeated (sumOf run) (pencil.stroke stop)).toList ++ (pencil.bracketCaret style).toList ++
        if message.isEmpty then [] else ' ' :: message.toList := by
  have opening (rest : List Event) :
      Event.written (pencil.setLabel style :: rest) = Event.written rest := rfl
  have after : Event.written (if message.isEmpty then [] else [.write (" " ++ message)]) =
      if message.isEmpty then [] else ' ' :: message.toList := by
    split
    · rfl
    · rw [Event.written_singleton, String.toList_append]
      rfl
  have closing : Event.written [.reset] = [] := rfl
  rw [bracketRun, List.cons_append, List.cons_append, List.cons_append, opening,
    Event.written_append, Event.written_append, Event.written_append, written_strokes,
    Event.written_singleton, after, closing, List.append_nil]

theorem text_bracket (pencil : Pencil) (padding : Nat) (cells : List GutterCell)
    (stop : BracketEnd) (style : LabelStyle) (run : List Nat) (message : String) :
    pencil.text padding (.bracket cells stop style run message) =
      pencil.beforeCaret padding cells stop (sumOf run) ++ (pencil.bracketCaret style).toList ++
        (if message.isEmpty then [] else ' ' :: message.toList) ++ ['\n'] := by
  rw [Pencil.text, row, content, Event.written_append, Event.written_append, written_bracketRun,
    Event.written_singleton, beforeCaret]
  simp only [List.append_assoc]
  rfl

end Pencil
end SourceReport

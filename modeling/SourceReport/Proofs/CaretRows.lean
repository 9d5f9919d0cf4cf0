import SourceReport.Proofs.DisplayColumns

/-!
# Caret rows

The row below a source row has carets in the columns of the characters that labels overlap, and
blanks before and between them. It ends where the last label ends, and the message of that label may
follow.
-/

namespace SourceReport

/-!
# The reach of marks
-/

theorem le_foldl_max_iff (values : List Int) (start bound : Int) :
    bound ≤ values.foldl max start ↔ bound ≤ start ∨ ∃ value ∈ values, bound ≤ value := by
  induction values generalizing start with
  | nil => simp
  | cons value rest ih =>
      have either : bound ≤ max start value ↔ bound ≤ start ∨ bound ≤ value := by omega
      rw [List.foldl_cons, ih, either, List.exists_mem_cons_iff, or_assoc]

namespace LabelStyle

theorem strongest?_eq_none_iff (styles : List LabelStyle) :
    strongest? styles = none ↔ styles = [] := by
  constructor
  · intro unmarked
    rw [strongest?] at unmarked
    cases styles with
    | nil => rfl
    | cons style rest =>
        cases style with
        | primary =>
            rw [if_pos List.mem_cons_self] at unmarked
            cases unmarked
        | secondary =>
            rw [if_pos (c := LabelStyle.secondary ∈ _) List.mem_cons_self] at unmarked
            split at unmarked
            · cases unmarked
            · cases unmarked
  · rintro rfl
    rfl

theorem strongest?_eq (styles : List LabelStyle) :
    strongest? styles =
      if .primary ∈ styles then some .primary
      else if styles = [] then none
      else some .secondary := by
  have unmarked := strongest?_eq_none_iff styles
  rw [strongest?] at unmarked ⊢
  split
  · rfl
  · rename_i other
    rw [if_neg other] at unmarked
    split
    · rename_i marked
      rw [if_pos marked] at unmarked
      rw [if_neg (fun empty => by cases unmarked.mpr empty)]
    · rename_i none
      rw [if_neg none] at unmarked
      rw [if_pos (unmarked.mp rfl)]

end LabelStyle

namespace Line

/-- A mark reaches beyond the first byte of a character. -/
def isReached (marks : List SingleMark) (slot : PlacedChar) : Bool :=
  marks.any fun mark => (slot.byteIndex : Int) < mark.stop

theorem isReached_eq (marks : List SingleMark) (slot : PlacedChar) :
    isReached marks slot = decide ((slot.byteIndex : Int) < maxStop marks) := by
  rw [isReached, Bool.eq_iff_iff, List.any_eq_true, decide_eq_true_eq, maxStop,
    Int.lt_iff_add_one_le, le_foldl_max_iff]
  constructor
  · rintro ⟨mark, member, reached⟩
    exact Or.inr ⟨mark.stop, List.mem_map_of_mem member, of_decide_eq_true reached⟩
  · rintro (before | ⟨stop, listed, reached⟩)
    · omega
    · rcases List.mem_map.mp listed with ⟨mark, member, rfl⟩
      exact ⟨mark, member, decide_eq_true reached⟩

/-- The part of the line under which there is something to draw. -/
def caretWidth (tabWidth : Nat) (line : List Char) (marks : List SingleMark) : Nat :=
  totalWidth ((slots tabWidth line).filter (isReached marks))

/-!
# Carets under a character
-/

/-- What each column under a character holds: the caret of its strongest label, or a blank. -/
def caretUnder (glyphs : Glyphs) (marks : List SingleMark) (slot : PlacedChar) : List Char :=
  if marks.any fun mark => mark.style = .primary && overlaps mark.range slot.byteRange then
    glyphs.primaryCaret.toList
  else if marks.any fun mark => overlaps mark.range slot.byteRange then
    glyphs.secondaryCaret.toList
  else [' ']

/-- What the caret row holds in a column of the line. -/
def caretAt (glyphs : Glyphs) (tabWidth : Nat) (line : List Char) (marks : List SingleMark)
    (column : Nat) : List Char :=
  match occupant? (slots tabWidth line) column with
  | some slot => caretUnder glyphs marks slot
  | none => []

theorem isReached_of_overlaps {marks : List SingleMark} {slot : PlacedChar}
    (h : (marks.any fun mark => overlaps mark.range slot.byteRange) = true) :
    isReached marks slot = true := by
  rcases List.any_eq_true.mp h with ⟨mark, member, overlap⟩
  rw [isReached, List.any_eq_true]
  refine ⟨mark, member, ?_⟩
  rw [overlaps, decide_eq_true_eq] at overlap
  rw [decide_eq_true_eq]
  have first : slot.byteRange.1 = slot.byteIndex := rfl
  have last : mark.range.2 = mark.stop := rfl
  omega

theorem style_caretCell (marks : List SingleMark) (slot : PlacedChar) :
    (caretCell marks slot).style =
      if marks.any fun mark => mark.style = .primary && overlaps mark.range slot.byteRange then
        some .primary
      else if marks.any fun mark => overlaps mark.range slot.byteRange then some .secondary
      else none := by
  have primary : (.primary ∈ (marks.filter fun mark => overlaps mark.range slot.byteRange).map
      (·.style)) =
        ((marks.any fun mark => mark.style = .primary && overlaps mark.range slot.byteRange) =
          true) := by
    rw [List.mem_map, List.any_eq_true]
    apply propext
    constructor
    · rintro ⟨mark, listed, primary⟩
      rcases List.mem_filter.mp listed with ⟨member, overlap⟩
      exact ⟨mark, member, Bool.and_eq_true_iff.mpr ⟨decide_eq_true primary, overlap⟩⟩
    · rintro ⟨mark, member, both⟩
      rcases Bool.and_eq_true_iff.mp both with ⟨primary, overlap⟩
      exact ⟨mark, List.mem_filter.mpr ⟨member, overlap⟩, of_decide_eq_true primary⟩
  have empty : ((marks.filter fun mark => overlaps mark.range slot.byteRange).map (·.style) = []) =
      ¬ (marks.any fun mark => overlaps mark.range slot.byteRange) = true := by
    rw [List.map_eq_nil_iff, List.filter_eq_nil_iff, List.any_eq_true]
    simp only [not_exists, not_and]
  rw [caretCell, LabelStyle.strongest?_eq]
  simp only [primary, empty, ite_not]

/-- The carets under a character are drawn column by column, if a mark reaches it. -/
theorem written_caretText (pencil : Pencil) (marks : List SingleMark) (slot : PlacedChar) :
    Event.written (pencil.caretText (caretCell marks slot)) =
      if isReached marks slot then
        (List.range slot.width).flatMap fun _ => caretUnder pencil.glyphs marks slot
      else [] := by
  have width : (caretCell marks slot).width = slot.width := rfl
  have drawn : (caretCell marks slot).drawn =
      ((caretCell marks slot).style.isSome || isReached marks slot) := by
    rw [isReached_eq]
    rfl
  rw [Pencil.caretText, width, drawn, style_caretCell, caretUnder]
  by_cases primary : (marks.any fun mark =>
      mark.style = .primary && overlaps mark.range slot.byteRange) = true
  · have overlapped : (marks.any fun mark => overlaps mark.range slot.byteRange) = true := by
      rw [List.any_eq_true] at primary ⊢
      rcases primary with ⟨mark, member, both⟩
      exact ⟨mark, member, (Bool.and_eq_true_iff.mp both).2⟩
    rw [if_pos primary, if_pos primary, if_pos (isReached_of_overlaps overlapped)]
    exact (Event.written_singleton _).trans (toList_repeated _ _)
  · rw [if_neg primary, if_neg primary]
    by_cases overlapped : (marks.any fun mark => overlaps mark.range slot.byteRange) = true
    · rw [if_pos overlapped, if_pos overlapped, if_pos (isReached_of_overlaps overlapped)]
      exact (Event.written_singleton _).trans (toList_repeated _ _)
    · rw [if_neg overlapped, if_neg overlapped]
      by_cases reached : isReached marks slot = true
      · rw [if_pos reached, if_pos (Bool.or_eq_true_iff.mpr (Or.inr reached))]
        rw [← replicate_eq_flatMap, ← toList_spaces]
        exact Event.written_singleton _
      · have undrawn : ¬ ((none : Option LabelStyle).isSome || isReached marks slot) = true :=
          reached
        rw [if_neg reached]
        exact congrArg Event.written (if_neg undrawn)

theorem written_caretCells (pencil : Pencil) (current : Option LabelStyle)
    (cells : List CaretCell) :
    Event.written (pencil.caretCells current cells) =
      cells.flatMap fun cell => Event.written (pencil.caretText cell) := by
  induction cells generalizing current with
  | nil =>
      rw [Pencil.caretCells]
      split
      · rfl
      · rfl
  | cons cell rest ih =>
      rw [Pencil.caretCells, Event.written_append, Event.written_append, ih, List.flatMap_cons]
      split
      · rfl
      · split
        · rfl
        · rfl

/-!
# The caret row
-/

/-- The message after the carets, with the blank before it. -/
def trailingChars (marks : List SingleMark) : List Char :=
  match trailingText marks with
  | some (_, message) => ' ' :: message.toList
  | none => []

/-- What a source row and the caret row below it hold behind their left sides. -/
structure CaretsMatch (glyphs : Glyphs) (tabWidth : Nat) (line : List Char)
    (marks : List SingleMark) (source carets : List Char) : Prop where
  source_eq : source = (place tabWidth line).flatMap fun one => (Pencil.sourceText one).string.toList
  width_eq : ∀ one ∈ place tabWidth line,
    displayWidth (Pencil.sourceText one).string.toList = one.width
  carets_eq : carets =
    (List.range (caretWidth tabWidth line marks)).flatMap (caretAt glyphs tabWidth line marks) ++
      trailingChars marks
  column_eq : ∀ column ≤ caretWidth tabWidth line marks,
    displayWidth ((List.range column).flatMap (caretAt glyphs tabWidth line marks)) = column
  taken : ∀ column < caretWidth tabWidth line marks,
    ∃ slot, occupant? (slots tabWidth line) column = some slot
  reached : ∀ column slot, occupant? (slots tabWidth line) column = some slot →
    (∃ mark ∈ marks, overlaps mark.range slot.byteRange = true) →
      column < caretWidth tabWidth line marks

theorem filter_isReached (placed : List PlacedChar) (marks : List SingleMark) :
    placed.filter (isReached marks) = charsBefore placed (maxStop marks) := by
  have test : isReached marks = fun slot => decide ((slot.byteIndex : Int) < maxStop marks) :=
    funext (isReached_eq marks)
  rw [test, charsBefore]

/-- The characters that marks reach are the first ones. -/
theorem filter_isReached_prefix (tabWidth : Nat) (line : List Char) (marks : List SingleMark) :
    (slots tabWidth line).filter (isReached marks) <+: slots tabWidth line := by
  rw [filter_isReached, charsBefore_eq_takeWhile (pairwise_slots tabWidth line)]
  exact List.takeWhile_prefix _

/-- A column under a reached character lies in the part that is drawn. -/
theorem lt_caretWidth {tabWidth column : Nat} {line : List Char} {marks : List SingleMark}
    {slot : PlacedChar} (taken : occupant? (slots tabWidth line) column = some slot)
    (reached : isReached marks slot = true) : column < caretWidth tabWidth line marks := by
  rcases occupant?_eq_some_iff.mp taken with ⟨front, back, parts, _, inside⟩
  have order := pairwise_slots tabWidth line
  rw [parts] at order
  rw [isReached_eq, decide_eq_true_eq] at reached
  rw [caretWidth, filter_isReached, parts, charsBefore_of_lt order reached, totalWidth_append,
    totalWidth_cons]
  omega

theorem caretAt_eq {glyphs : Glyphs} {tabWidth column : Nat} {line : List Char}
    {marks : List SingleMark} {slot : PlacedChar}
    (taken : occupant? (slots tabWidth line) column = some slot) :
    caretAt glyphs tabWidth line marks column = caretUnder glyphs marks slot := by
  rw [caretAt, taken]

theorem exists_slot {tabWidth column : Nat} {line : List Char} {marks : List SingleMark}
    (h : column < caretWidth tabWidth line marks) :
    ∃ slot, occupant? (slots tabWidth line) column = some slot := by
  rcases filter_isReached_prefix tabWidth line marks with ⟨rest, parts⟩
  apply exists_occupant?_eq
  rw [← parts, totalWidth_append]
  exact Nat.lt_of_lt_of_le h (Nat.le_add_right _ _)

theorem written_carets (pencil : Pencil) (tabWidth : Nat) (line : List Char)
    (marks : List SingleMark) :
    Event.written (pencil.caretCells none (caretCells line (place tabWidth line) marks)) =
      (List.range (caretWidth tabWidth line marks)).flatMap
        (caretAt pencil.glyphs tabWidth line marks) := by
  rcases filter_isReached_prefix tabWidth line marks with ⟨rest, parts⟩
  rw [written_caretCells, caretCells, List.flatMap_map, ← slots]
  simp only [written_caretText]
  rw [flatMap_ite_eq]
  apply flatMap_eq_columns
  intro front slot back listed inner inside
  apply caretAt_eq
  rw [occupant?_eq_some_iff]
  refine ⟨front, back ++ rest, ?_, Nat.le_add_right _ _, Nat.add_lt_add_left inside _⟩
  rw [← parts, listed, List.append_assoc, List.cons_append]

/-- With carets of one column, each column under the line holds one piece. -/
theorem displayWidth_caretAt {glyphs : Glyphs} {tabWidth column : Nat} {line : List Char}
    {marks : List SingleMark} (primary : displayWidth glyphs.primaryCaret.toList = 1)
    (secondary : displayWidth glyphs.secondaryCaret.toList = 1)
    (h : column < caretWidth tabWidth line marks) :
    displayWidth (caretAt glyphs tabWidth line marks column) = 1 := by
  rcases exists_slot h with ⟨slot, taken⟩
  rw [caretAt_eq taken, caretUnder]
  split
  · exact primary
  · split
    · exact secondary
    · exact displayWidth_blanks 1

theorem caretsMatch (glyphs : Glyphs) (tabWidth : Nat) (line : List Char) (marks : List SingleMark)
    (primary : displayWidth glyphs.primaryCaret.toList = 1)
    (secondary : displayWidth glyphs.secondaryCaret.toList = 1) :
    CaretsMatch glyphs tabWidth line marks
      ((place tabWidth line).flatMap fun one => (Pencil.sourceText one).string.toList)
      ((List.range (caretWidth tabWidth line marks)).flatMap (caretAt glyphs tabWidth line marks) ++
        trailingChars marks) where
  source_eq := rfl
  width_eq _ member := displayWidth_sourceText member
  carets_eq := rfl
  column_eq := by
    intro column bound
    have pieces : ∀ next ∈ List.range column,
        displayWidth (caretAt glyphs tabWidth line marks next) = 1 := by
      intro next listed
      have below := List.mem_range.mp listed
      exact displayWidth_caretAt primary secondary (Nat.lt_of_lt_of_le below bound)
    rw [displayWidth_flatMap pieces, List.length_range]
  taken _ := exists_slot
  reached _ _ taken overlapped :=
    lt_caretWidth taken (isReached_of_overlaps (List.any_eq_true.mpr overlapped))

theorem text_source (pencil : Pencil) (padding : Nat) (number : Int) (gutter : List GutterCell)
    (placed : List PlacedChar) (marks : List SingleMark) (entries : List BracketEntry) :
    pencil.text padding (.source number gutter (sourceCells placed marks entries)) =
      Event.written (pencil.sourceSide padding number gutter) ++
        (placed.flatMap fun one => (Pencil.sourceText one).string.toList) ++ ['\n'] := by
  rw [Pencil.text, Pencil.row, Pencil.content, Event.written_append, Event.written_append]
  congr 2
  rw [Event.written, Pencil.texts_sourceCells, sourceCells, List.map_map, List.flatMap_map]
  rfl

theorem text_carets (pencil : Pencil) (padding tabWidth : Nat) (gutter : List GutterCell)
    (line : List Char) (marks : List SingleMark) :
    pencil.text padding
        (.carets gutter (caretCells line (place tabWidth line) marks) (trailingText marks)) =
      Event.written (pencil.leftSide padding gutter) ++
        ' ' :: ((List.range (caretWidth tabWidth line marks)).flatMap
          (caretAt pencil.glyphs tabWidth line marks) ++ trailingChars marks) ++ ['\n'] := by
  have parts : ∀ events : List Event,
      Event.written (pencil.leftSide padding gutter ++
          .write " " :: pencil.caretCells none (caretCells line (place tabWidth line) marks) ++
          events ++ [.write "\n"]) =
        Event.written (pencil.leftSide padding gutter) ++
          ' ' :: ((List.range (caretWidth tabWidth line marks)).flatMap
            (caretAt pencil.glyphs tabWidth line marks) ++ Event.written events) ++ ['\n'] := by
    intro events
    rw [Event.written_append, Event.written_append, Event.written_append, Event.written_write,
      written_carets, List.append_assoc (Event.written _)]
    rfl
  cases found : trailingText marks with
  | none =>
      rw [trailingChars, found]
      exact parts []
  | some text =>
      have message : Event.written (.write " " :: pencil.inLabel text.1 text.2) =
          ' ' :: text.2.toList := congrArg (' ' :: ·) (Event.written_inLabel pencil _ _)
      rw [trailingChars, found]
      simp only
      rw [← message]
      exact parts _

/-- The rows of the messages that hang below the carets. -/
def hangingRows (gutter : List GutterCell) (placed : List PlacedChar) (marks : List SingleMark) :
    List Row :=
  if hangingMarks marks = [] then []
  else
    .pointers gutter (pointerCells (maxStart marks) (hangingMarks marks) placed) ::
      (hangingMarks marks).reverse.map
        (hangingRow gutter (maxStart marks) (hangingMarks marks) placed)

/-- The rows of a marked line are its source row, the carets, the hanging messages and the
brackets. -/
theorem rows_eq (tabWidth : Nat) (number : Int) (text : String) {marks : List SingleMark}
    (columns : Nat) (entries : List BracketEntry) (marked : marks ≠ []) :
    rows tabWidth number text marks columns entries =
      .source number (Gutter.ofSource entries columns (indent (trimTrailing text.toList)))
          (sourceCells (place tabWidth (trimTrailing text.toList)) marks entries) ::
        .carets (Gutter.ofLine entries columns)
            (caretCells (trimTrailing text.toList) (place tabWidth (trimTrailing text.toList))
              marks)
            (trailingText marks) ::
          (hangingRows (Gutter.ofLine entries columns)
              (place tabWidth (trimTrailing text.toList)) marks ++
            bracketRows entries columns (indent (trimTrailing text.toList))
              (place tabWidth (trimTrailing text.toList))) := by
  have nonempty : ¬ marks.isEmpty = true := fun empty => marked (List.isEmpty_iff.mp empty)
  rw [rows, if_neg nonempty, markRows, hangingRows]
  simp only [List.isEmpty_iff]
  split
  · rfl
  · rfl

/-- The rows of a marked line begin with its source row and the carets. -/
theorem exists_rows_eq (tabWidth : Nat) (number : Int) (text : String) {marks : List SingleMark}
    (columns : Nat) (entries : List BracketEntry) (marked : marks ≠ []) :
    ∃ below, rows tabWidth number text marks columns entries =
      .source number (Gutter.ofSource entries columns (indent (trimTrailing text.toList)))
          (sourceCells (place tabWidth (trimTrailing text.toList)) marks entries) ::
        .carets (Gutter.ofLine entries columns)
            (caretCells (trimTrailing text.toList) (place tabWidth (trimTrailing text.toList))
              marks)
            (trailingText marks) :: below :=
  ⟨_, rows_eq tabWidth number text columns entries marked⟩

/-- The caret row of a marked line matches its source row column by column. -/
theorem caret_row_exact (pencil : Pencil) (padding tabWidth : Nat) (number : Int) (text : String)
    (marks : List SingleMark) (columns : Nat) (entries : List BracketEntry) (marked : marks ≠ [])
    (primary : displayWidth pencil.glyphs.primaryCaret.toList = 1)
    (secondary : displayWidth pencil.glyphs.secondaryCaret.toList = 1) :
    ∃ left cells right carets trailing below source drawn,
      rows tabWidth number text marks columns entries =
        .source number left cells :: .carets right carets trailing :: below ∧
      pencil.text padding (.source number left cells) =
        Event.written (pencil.sourceSide padding number left) ++ source ++ ['\n'] ∧
      pencil.text padding (.carets right carets trailing) =
        Event.written (pencil.leftSide padding right) ++ ' ' :: drawn ++ ['\n'] ∧
      CaretsMatch pencil.glyphs tabWidth (trimTrailing text.toList) marks source drawn := by
  rcases exists_rows_eq tabWidth number text columns entries marked with ⟨below, drawn⟩
  exact ⟨_, _, _, _, _, below, _, _, drawn, text_source pencil padding number _ _ _ _,
    text_carets pencil padding tabWidth _ _ _, caretsMatch _ _ _ _ primary secondary⟩

namespace Wide

/-- A tab, a letter of two bytes and a character of two columns. -/
def text : String := "\té漢x\n"

def marks : List SingleMark :=
  [⟨.secondary, 1, 3, "letter"⟩, ⟨.primary, 3, 6, "character"⟩]

def pencil : Pencil where
  glyphs := .boxDrawing
  theme := .noColor
  severity := .error

end Wide

theorem caret_row_exact_wide :
    Wide.marks ≠ [] ∧ displayWidth Wide.pencil.glyphs.primaryCaret.toList = 1 ∧
      displayWidth Wide.pencil.glyphs.secondaryCaret.toList = 1 ∧
      ∃ left cells right carets trailing below source drawn,
        rows 4 1 Wide.text Wide.marks 0 [] =
          .source 1 left cells :: .carets right carets trailing :: below ∧
        Wide.pencil.text 1 (.source 1 left cells) =
          Event.written (Wide.pencil.sourceSide 1 1 left) ++ source ++ ['\n'] ∧
        Wide.pencil.text 1 (.carets right carets trailing) =
          Event.written (Wide.pencil.leftSide 1 right) ++ ' ' :: drawn ++ ['\n'] ∧
        CaretsMatch Wide.pencil.glyphs 4 (trimTrailing Wide.text.toList) Wide.marks source drawn :=
  ⟨by decide, by decide +kernel, by decide +kernel,
    caret_row_exact Wide.pencil 1 4 1 Wide.text Wide.marks 0 [] (by decide) (by decide +kernel)
      (by decide +kernel)⟩

example : (List.range (caretWidth 4 ['\t', 'é', '漢', 'x'] Wide.marks)).flatMap
    (caretAt .boxDrawing 4 ['\t', 'é', '漢', 'x'] Wide.marks) =
      [' ', ' ', ' ', ' ', '-', '^', '^'] := by
  decide +kernel

end Line
end SourceReport

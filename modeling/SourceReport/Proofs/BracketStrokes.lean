import SourceReport.Proofs.Corners
import SourceReport.Proofs.RowWidths

/-!
# Strokes

The run of a bracket row is drawn with the stroke of its own end, in every gutter column and over
the text. Only beside a bar that it crosses the stroke is always that of a top. The two differ where
a bracket closes beside an open one and the glyphs have different strokes.
-/

namespace SourceReport

def GutterCell.isCrossing : GutterCell → Bool
  | .crossing _ _ => true
  | .blank | .bar _ | .corner _ _ | .run _ _ => false

namespace Gutter

variable {entries : List BracketEntry} {own : BracketEntry} {place column columns : Nat}
  {stop : BracketEnd}

/-!
# Cells beside a corner
-/

/-- The bar that a column shows in the row of the entry at `place`: that of a bracket which goes on
there, which has begun in an earlier row or which is to end in a later one. -/
def bar? (entries : List BracketEntry) (place column : Nat) : Option LabelStyle :=
  (placedAt? entries column).bind fun shown =>
    match shown.1.part with
    | .left => some shown.1.style
    | .top _ => if shown.2 < place then some shown.1.style else none
    | .bottom _ _ => if place < shown.2 then some shown.1.style else none

/-- A cell of a bracket row that is not its corner. -/
def besideCell (entries : List BracketEntry) (place : Nat) (run : Run) (column : Nat) :
    GutterCell :=
  match bar? entries place column with
  | none => runCell run
  | some style => barCell run style

/-- The gutter has the column of the entry at `place`, and no later entry takes its place there. -/
def IsShown (entries : List BracketEntry) (columns place : Nat) (own : BracketEntry) : Prop :=
  own.column < columns ∧
    ∀ later other, place < later → entries[later]? = some other → other.column ≠ own.column

/-- Where the columns of entries ascend, all of them are shown. -/
theorem isShown_of_pairwise
    (ascending : entries.Pairwise fun entry next => entry.column < next.column)
    (placed : entries[place]? = some own) (inside : own.column < columns) :
    IsShown entries columns place own := by
  refine ⟨inside, ?_⟩
  intro later other after listed
  exact Nat.ne_of_gt ((lt_iff_column_lt ascending placed listed).mp after)

/-- Of several entries in a column the last one is shown. -/
theorem column_ne_of_placedAt? {entry other : BracketEntry} {index later : Nat}
    (found : placedAt? entries column = some (entry, index)) (after : index < later)
    (listed : entries[later]? = some other) : other.column ≠ column := by
  have descending : entries.zipIdx.reverse.Pairwise fun one next => next.2 < one.2 := by
    rw [List.pairwise_reverse, List.pairwise_iff_getElem]
    intro i j _ _ order
    rw [List.getElem_zipIdx, List.getElem_zipIdx]
    exact Nat.add_lt_add_left order 0
  have member : (other, later) ∈ entries.zipIdx.reverse :=
    List.mem_reverse.mpr (List.mem_zipIdx_iff_getElem?.mpr listed)
  rcases List.find?_eq_some_iff_append.mp found with ⟨_, above, below, parts, unmatched⟩
  rw [parts, List.pairwise_append, List.pairwise_cons] at descending
  rw [parts, List.mem_append, List.mem_cons] at member
  rcases member with higher | this | lower
  · have apart := unmatched (other, later) higher
    rw [Bool.not_eq_true', decide_eq_false_iff_not] at apart
    exact apart
  · cases this
    exact absurd after (Nat.lt_irrefl _)
  · exact absurd after (Nat.lt_asymm (descending.2.1.1 (other, later) lower))

theorem placedAt?_of_isShown (placed : entries[place]? = some own)
    (shown : IsShown entries columns place own) :
    placedAt? entries own.column = some (own, place) := by
  cases found : placedAt? entries own.column with
  | none =>
      have member : (own, place) ∈ entries.zipIdx.reverse :=
        List.mem_reverse.mpr (List.mem_zipIdx_iff_getElem?.mpr placed)
      exact absurd (decide_eq_true rfl) (List.find?_eq_none.mp found (own, place) member)
  | some last =>
      rcases last with ⟨entry, index⟩
      rcases placedAt?_eq_some found with ⟨listed, same⟩
      rcases Nat.lt_trichotomy place index with after | here | before
      · exact absurd same (shown.2 index entry after listed)
      · subst here
        rw [placed] at listed
        cases listed
        rfl
      · exact absurd rfl (column_ne_of_placedAt? found before placed)

theorem placedAt?_ne_of_not_isShown (placed : entries[place]? = some own)
    (hidden : ¬ IsShown entries columns place own) (inside : column < columns)
    (entry : BracketEntry) : placedAt? entries column ≠ some (entry, place) := by
  intro found
  rcases placedAt?_eq_some found with ⟨listed, rfl⟩
  rw [placed] at listed
  cases listed
  exact hidden ⟨inside, fun _ _ => column_ne_of_placedAt? found⟩

theorem continues_besideCell (entries : List BracketEntry) (place : Nat) (stop : BracketEnd)
    (style : LabelStyle) (column : Nat) :
    (besideCell entries place (some (stop, style)) column).Continues stop style := by
  rw [besideCell]
  cases bar? entries place column with
  | none => exact .run
  | some other => exact .crossing other

theorem isCrossing_besideCell (entries : List BracketEntry) (place : Nat) (stop : BracketEnd)
    (style : LabelStyle) (column : Nat) :
    (besideCell entries place (some (stop, style)) column).isCrossing =
      (bar? entries place column).isSome := by
  rw [besideCell]
  cases bar? entries place column with
  | none => rfl
  | some other => rfl

theorem bracketCell_beside (other : ∀ entry, placedAt? entries column ≠ some (entry, place))
    (run : Run) :
    bracketCell entries place run column = (besideCell entries place run column, run) := by
  rw [bracketCell, besideCell, bar?]
  cases found : placedAt? entries column with
  | none => rfl
  | some shown =>
      rcases shown with ⟨entry, index⟩
      have elsewhere : index ≠ place := by
        rintro rfl
        exact other entry found
      cases part : entry.part with
      | left => simp only [Option.bind_some, part]
      | top start =>
          simp only [Option.bind_some, part, elsewhere, if_false]
          split <;> rfl
      | bottom last message =>
          simp only [Option.bind_some, part, elsewhere, if_false]
          split <;> rfl

theorem bracketCells_beside (run : Run) {front : List Nat}
    (other : ∀ column ∈ front, ∀ entry, placedAt? entries column ≠ some (entry, place))
    (back : List Nat) :
    bracketCells entries place run (front ++ back) =
      front.map (besideCell entries place run) ++ bracketCells entries place run back := by
  induction front with
  | nil => rfl
  | cons column rest ih =>
      rw [List.forall_mem_cons] at other
      rw [List.cons_append, bracketCells, bracketCell_beside other.1]
      exact congrArg (besideCell entries place run column :: ·) (ih other.2)

theorem bracketCells_eq_map (run : Run) {rest : List Nat}
    (other : ∀ column ∈ rest, ∀ entry, placedAt? entries column ≠ some (entry, place)) :
    bracketCells entries place run rest = rest.map (besideCell entries place run) := by
  have cells := bracketCells_beside run other []
  rw [List.append_nil, bracketCells, List.append_nil] at cells
  exact cells

/-- The gutter of a bracket row with the corner in the column of its bracket. -/
theorem ofBracket_of_shown (placed : entries[place]? = some own) (ends : own.part.end? = some stop)
    (shown : IsShown entries columns place own) :
    ofBracket entries columns place =
      (List.range own.column).map (besideCell entries place none) ++ .corner stop own.style ::
        (List.range' (own.column + 1) (columns - (own.column + 1))).map
          (besideCell entries place (some (stop, own.style))) := by
  have other : ∀ column, column ≠ own.column →
      ∀ entry, placedAt? entries column ≠ some (entry, place) := by
    intro column apart entry found
    rcases placedAt?_eq_some found with ⟨listed, rfl⟩
    rw [placed] at listed
    cases listed
    exact apart rfl
  have inside := shown.1
  have parts : own.column + (columns - (own.column + 1) + 1) = columns := by omega
  have split : List.range columns = List.range own.column ++
      own.column :: List.range' (own.column + 1) (columns - (own.column + 1)) := by
    have joined := @List.range'_append_1 0 own.column (columns - (own.column + 1) + 1)
    rw [Nat.zero_add, parts, List.range'_succ] at joined
    rw [List.range_eq_range', List.range_eq_range', joined]
  have left : ∀ column ∈ List.range own.column,
      ∀ entry, placedAt? entries column ≠ some (entry, place) :=
    fun column member => other column (Nat.ne_of_lt (List.mem_range.mp member))
  have right : ∀ column ∈ List.range' (own.column + 1) (columns - (own.column + 1)),
      ∀ entry, placedAt? entries column ≠ some (entry, place) :=
    fun column member => other column (Nat.ne_of_gt (List.mem_range'_1.mp member).1)
  rw [ofBracket, split, bracketCells_beside none left, bracketCells,
    bracketCell_corner (placedAt?_of_isShown placed shown) ends]
  exact congrArg (_ ++ .corner stop own.style :: ·) (bracketCells_eq_map _ right)

/-- The gutter of a bracket row if no column shows the bracket. -/
theorem ofBracket_of_hidden (placed : entries[place]? = some own)
    (hidden : ¬ IsShown entries columns place own) :
    ofBracket entries columns place =
      (List.range columns).map (besideCell entries place none) :=
  bracketCells_eq_map none fun _ member =>
    placedAt?_ne_of_not_isShown placed hidden (List.mem_range.mp member)

end Gutter

namespace Line

variable {tabWidth columns : Nat} {run : List Nat} {number : Int} {text message : String}
  {marks : List SingleMark} {entries : List BracketEntry} {gutter : List GutterCell}
  {stop : BracketEnd} {style : LabelStyle}

theorem bracket_not_mem_markRows (line : List Char) (placed : List PlacedChar)
    (cells : List GutterCell) :
    Row.bracket gutter stop style run message ∉ markRows cells line placed marks := by
  intro member
  rw [markRows] at member
  split at member
  · cases List.mem_singleton.mp member
  · rcases List.mem_cons.mp member with this | others
    · cases this
    · rcases List.mem_cons.mp others with this | hanging
      · cases this
      · rcases List.mem_map.mp hanging with ⟨mark, _, this⟩
        cases this

/-- A bracket row belongs to an entry that draws its end. -/
theorem exists_of_bracket_mem_rows
    (h : Row.bracket gutter stop style run message ∈
      rows tabWidth number text marks columns entries) :
    ∃ place own, entries[place]? = some own ∧ own.part.end? = some stop ∧ own.style = style ∧
      Gutter.ofBracket entries columns place = gutter := by
  rw [rows, List.mem_append, List.mem_cons] at h
  rcases h with (this | marked) | ending
  · cases this
  · split at marked
    · cases marked
    · exact absurd marked (bracket_not_mem_markRows _ _ _)
  · rcases List.mem_filterMap.mp ending with ⟨⟨own, place⟩, member, drawn⟩
    have placed := List.mem_zipIdx_iff_getElem?.mp member
    simp only [bracketRow?] at drawn
    split at drawn
    · cases drawn
    · rename_i start part
      split at drawn
      · cases drawn
      · cases drawn
        exact ⟨place, own, placed, congrArg BracketPart.end? part, rfl, rfl⟩
    · rename_i last ending part
      cases drawn
      exact ⟨place, own, placed, congrArg BracketPart.end? part, rfl, rfl⟩

end Line

/-!
# Texts of bracket rows
-/

namespace Pencil

variable (pencil : Pencil)

/-- What a cell behind the corner shows, with the given text beside the bar if there is one. -/
def cellStrokes (stop : BracketEnd) (beside : String) (cell : GutterCell) : List Char :=
  if cell.isCrossing then beside.toList ++ pencil.glyphs.bar.toList
  else (repeated 2 (pencil.stroke stop)).toList

/-- The text of a bracket row: to the left of the corner, the corner, the run over the other columns
and over the text, and the caret at its end. -/
def runText (padding : Nat) (left right : List GutterCell) (stop : BracketEnd) (style : LabelStyle)
    (width : Nat) (message : String) (beside : String) : List Char :=
  Event.written (pencil.leftSide padding left) ++ ' ' :: (pencil.corner stop).toList ++
    right.flatMap (pencil.cellStrokes stop beside) ++
    (repeated width (pencil.stroke stop)).toList ++ (pencil.bracketCaret style).toList ++
    (if message.isEmpty then [] else ' ' :: message.toList) ++ ['\n']

variable {pencil} {padding width : Nat} {left right : List GutterCell} {stop : BracketEnd}
  {style : LabelStyle} {message first second : String}

theorem written_gutterCell {cell : GutterCell} (h : cell.Continues stop style) :
    Event.written (pencil.gutterCell cell) =
      pencil.cellStrokes stop pencil.glyphs.topStroke cell := by
  cases h with
  | run => exact List.append_nil _
  | crossing other =>
      rw [gutterCell, Event.written_append, Event.written_inLabel, Event.written_inLabel]
      rfl

theorem text_eq_runText (pencil : Pencil) (padding : Nat) (left : List GutterCell)
    (continues : ∀ cell ∈ right, cell.Continues stop style) (run : List Nat) (message : String) :
    pencil.text padding (.bracket (left ++ .corner stop style :: right) stop style run message) =
      pencil.runText padding left right stop style (sumOf run) message pencil.glyphs.topStroke := by
  have beyond : Event.written (pencil.gutter right) =
      right.flatMap (pencil.cellStrokes stop pencil.glyphs.topStroke) := by
    rw [gutter, Event.written_flatMap]
    exact List.flatMap_congr fun cell member => written_gutterCell (continues cell member)
  have parts : pencil.leftSide padding (left ++ .corner stop style :: right) =
      pencil.leftSide padding left ++ pencil.gutterCell (.corner stop style) ++
        pencil.gutter right := by
    simp only [leftSide, gutter, List.flatMap_append, List.flatMap_cons, List.append_assoc]
  rw [text_bracket, beforeCaret, parts, Event.written_append, Event.written_append, beyond,
    gutterCell, Event.written_write, Event.written_inLabel, runText]
  rfl

/-!
# Strokes beside bars
-/

/-- The text beside a bar counts once for each bar that is crossed. -/
theorem length_flatMap_cellStrokes (stop : BracketEnd) (beside : String) (cells : List GutterCell) :
    (cells.flatMap (pencil.cellStrokes stop beside)).length =
      cells.countP GutterCell.isCrossing * beside.length +
        (cells.flatMap (pencil.cellStrokes stop "")).length := by
  induction cells with
  | nil => exact (Nat.zero_mul _).symm
  | cons cell rest ih =>
      rw [List.flatMap_cons, List.flatMap_cons, List.length_append, List.length_append, ih,
        List.countP_cons, Nat.add_mul]
      cases crossed : cell.isCrossing with
      | true =>
          have empty : "".toList = ([] : List Char) := rfl
          simp only [cellStrokes, crossed, if_true, List.length_append, String.length_toList, empty,
            List.length_nil]
          omega
      | false =>
          simp only [cellStrokes, crossed, Bool.false_eq_true, if_false]
          omega

theorem eq_of_flatMap_cellStrokes {cells : List GutterCell}
    (crossed : ∃ cell ∈ cells, cell.isCrossing = true) (lengths : first.length = second.length)
    (same : cells.flatMap (pencil.cellStrokes stop first) =
      cells.flatMap (pencil.cellStrokes stop second)) : first = second := by
  induction cells with
  | nil =>
      rcases crossed with ⟨cell, member, _⟩
      cases member
  | cons cell rest ih =>
      rw [List.flatMap_cons, List.flatMap_cons] at same
      -- The first crossing shows the texts; the cells before it are the same on both sides.
      cases here : cell.isCrossing with
      | true =>
          simp only [cellStrokes, here, if_true, List.append_assoc] at same
          have chars : first.toList.length = second.toList.length := by
            rw [String.length_toList, String.length_toList, lengths]
          exact String.toList_injective (List.append_inj_left same chars)
      | false =>
          have beyond : ∃ cell ∈ rest, cell.isCrossing = true := by
            rcases crossed with ⟨other, member, bar⟩
            rcases List.mem_cons.mp member with rfl | later
            · rw [here] at bar
              cases bar
            · exact ⟨other, later, bar⟩
          simp only [cellStrokes, here, Bool.false_eq_true, if_false] at same
          exact ih beyond (List.append_cancel_left same)

/-- The text beside the bars can be read off the row, if the run crosses any. -/
theorem runText_eq_iff :
    pencil.runText padding left right stop style width message first =
        pencil.runText padding left right stop style width message second ↔
      first = second ∨ ∀ cell ∈ right, cell.isCrossing = false := by
  constructor
  · intro same
    rw [or_iff_not_imp_right]
    intro crossing
    have crossed : ∃ cell ∈ right, cell.isCrossing = true := by
      simp only [not_forall, exists_prop, Bool.not_eq_false] at crossing
      exact crossing
    simp only [runText, List.append_cancel_right_eq, List.append_cancel_left_eq] at same
    -- Texts of one length come from texts beside the bars of one length.
    have lengths := congrArg List.length same
    rw [length_flatMap_cellStrokes, length_flatMap_cellStrokes stop second] at lengths
    have count : 0 < right.countP GutterCell.isCrossing := List.countP_pos_iff.mpr crossed
    exact eq_of_flatMap_cellStrokes crossed
      (Nat.eq_of_mul_eq_mul_left count (Nat.add_right_cancel lengths)) same
  · rintro (rfl | uncrossed)
    · rfl
    · have alike : right.flatMap (pencil.cellStrokes stop first) =
          right.flatMap (pencil.cellStrokes stop second) := by
        apply List.flatMap_congr
        intro cell member
        simp only [cellStrokes, uncrossed cell member, Bool.false_eq_true, if_false]
      rw [runText, runText, alike]

theorem stroke_eq_iff (stop : BracketEnd) :
    pencil.glyphs.topStroke = pencil.stroke stop ↔
      stop = .top ∨ pencil.glyphs.topStroke = pencil.glyphs.bottomStroke := by
  cases stop with
  | top => exact iff_of_true rfl (Or.inl rfl)
  | bottom => exact ⟨Or.inr, fun h => h.resolve_left nofun⟩

end Pencil

namespace Line

/-- How the row of a bracket's end is drawn in whose column the bracket is shown. Its run has the
stroke of its own end throughout, unless it is a closing one that crosses a bar and the strokes of
the two ends differ. -/
structure DrawsRun (pencil : Pencil) (padding columns : Nat) (entries : List BracketEntry)
    (place : Nat) (own : BracketEntry) (stop : BracketEnd) (run : List Nat) (message : String)
    (row : Row) (left right : List GutterCell) : Prop where
  left_eq : left = (List.range own.column).map (Gutter.besideCell entries place none)
  right_eq : right = (List.range' (own.column + 1) (columns - (own.column + 1))).map
    (Gutter.besideCell entries place (some (stop, own.style)))
  row_eq : row = .bracket (left ++ .corner stop own.style :: right) stop own.style run message
  text_eq : pencil.text padding row =
    pencil.runText padding left right stop own.style (sumOf run) message pencil.glyphs.topStroke
  uniform_iff : pencil.text padding row =
      pencil.runText padding left right stop own.style (sumOf run) message (pencil.stroke stop) ↔
    stop = .top ∨ pencil.glyphs.topStroke = pencil.glyphs.bottomStroke ∨
      ∀ column, own.column < column → column < columns → Gutter.bar? entries place column = none

theorem exists_drawsRun (pencil : Pencil) (padding : Nat) {columns place : Nat}
    {entries : List BracketEntry} {own : BracketEntry} {stop : BracketEnd}
    (placed : entries[place]? = some own) (ends : own.part.end? = some stop)
    (shown : Gutter.IsShown entries columns place own) (run : List Nat) (message : String) :
    ∃ left right, DrawsRun pencil padding columns entries place own stop run message
      (.bracket (Gutter.ofBracket entries columns place) stop own.style run message) left
      right := by
  have inside := shown.1
  let right := (List.range' (own.column + 1) (columns - (own.column + 1))).map
    (Gutter.besideCell entries place (some (stop, own.style)))
  have continues : ∀ cell ∈ right, cell.Continues stop own.style := by
    intro cell member
    rcases List.mem_map.mp member with ⟨column, _, rfl⟩
    exact Gutter.continues_besideCell entries place stop own.style column
  have uncrossed : (∀ cell ∈ right, cell.isCrossing = false) ↔
      ∀ column, own.column < column → column < columns →
        Gutter.bar? entries place column = none := by
    rw [List.forall_mem_map]
    refine forall_congr' fun column => ?_
    rw [Gutter.isCrossing_besideCell, Option.isSome_eq_false_iff, Option.isNone_iff_eq_none,
      List.mem_range'_1, and_imp]
    have within : column < own.column + 1 + (columns - (own.column + 1)) ↔ column < columns := by
      omega
    rw [within]
    rfl
  rw [Gutter.ofBracket_of_shown placed ends shown]
  have text := pencil.text_eq_runText padding
    ((List.range own.column).map (Gutter.besideCell entries place none)) continues run message
  refine ⟨_, right, rfl, rfl, rfl, text, ?_⟩
  rw [text, Pencil.runText_eq_iff, pencil.stroke_eq_iff, uncrossed, or_assoc]

end Line

namespace Letters

/-- The brackets on a line where the first one ends and the second one goes on. -/
def ending : List BracketEntry :=
  [⟨0, .secondary, .bottom 1 "inner letters"⟩, ⟨1, .primary, .left⟩]

/-- Box drawing with another stroke for brackets that end. -/
def pencil : Pencil where
  glyphs := { Glyphs.boxDrawing with bottomStroke := "=" }
  theme := .noColor
  severity := .error

theorem areNarrow_pencil : pencil.glyphs.AreNarrow := by
  constructor <;> decide +kernel

end Letters

namespace Line

/-!
# All bracket rows
-/

theorem strokes_exact (pencil : Pencil) (padding tabWidth columns : Nat) (number : Int)
    (text : String) (marks : List SingleMark) (entries : List BracketEntry) :
    ∀ gutter stop style run message,
      Row.bracket gutter stop style run message ∈
          rows tabWidth number text marks columns entries →
        ∃ place own, entries[place]? = some own ∧ own.part.end? = some stop ∧ own.style = style ∧
          (Gutter.IsShown entries columns place own →
            ∃ left right, DrawsRun pencil padding columns entries place own stop run message
              (.bracket gutter stop style run message) left right) ∧
          (¬ Gutter.IsShown entries columns place own →
            gutter = (List.range columns).map (Gutter.besideCell entries place none)) := by
  intro gutter stop style run message member
  rcases exists_of_bracket_mem_rows member with ⟨place, own, placed, ends, rfl, rfl⟩
  refine ⟨place, own, placed, ends, rfl, ?_, Gutter.ofBracket_of_hidden placed⟩
  intro shown
  exact exists_drawsRun pencil padding placed ends shown run message

theorem strokes_exact_letters :
    let gutter : List GutterCell := [.corner .bottom .secondary, .crossing .secondary .primary]
    let row := Row.bracket gutter .bottom .secondary [1] "inner letters"
    row ∈ rows 4 8 "h\n" [] 2 Letters.ending ∧
      ∃ place own left right, Letters.ending[place]? = some own ∧
        DrawsRun Letters.pencil 2 2 Letters.ending place own .bottom [1] "inner letters" row left
          right := by
  intro gutter row
  have member : row ∈ rows 4 8 "h\n" [] 2 Letters.ending := by decide +kernel
  rcases strokes_exact Letters.pencil 2 4 2 8 "h\n" [] Letters.ending gutter .bottom .secondary [1]
    "inner letters" member with ⟨place, own, placed, _, _, drawn, _⟩
  have ascending : Letters.ending.Pairwise fun entry next => entry.column < next.column := by
    decide
  have inside : ∀ entry ∈ Letters.ending, entry.column < 2 := by decide
  have shown := Gutter.isShown_of_pairwise ascending placed
    (inside own (List.mem_of_getElem? placed))
  rcases drawn shown with ⟨left, right, run⟩
  exact ⟨member, place, own, left, right, placed, run⟩

end Line

namespace View

/-- The inner bracket opens and closes beside the outer one, with strokes of its own. Its closing
row has one of the other end. -/
theorem strokes_mixed_letters :
    let options : Options := { glyphs := Letters.pencil.glyphs }
    let rows := (steps Letters.base.lookup options Letters.crossed).filterMap Step.row?
    (∀ label ∈ Letters.crossed.labels, label.IsValid Letters.base) ∧
      Letters.pencil.glyphs.AreNarrow ∧
      rows[5]?.map (Letters.pencil.text 2) = some "   │ ╭─│─────'\n".toList ∧
      rows[13]?.map (Letters.pencil.text 2) = some "   │ ╰─│=' inner letters\n".toList := by
  refine ⟨Letters.crossed_valid, Letters.areNarrow_pencil, ?_, ?_⟩
  · decide +kernel
  · decide +kernel

end View
end SourceReport

import SourceReport.Glyphs
import SourceReport.Piece
import SourceReport.Row
import SourceReport.Theme

/-!
# Drawing rows

A row is written as a sequence of events: pieces of text, and between them the roles that the
following text plays. A role holds until it is reset.
-/

namespace SourceReport

inductive Event where
  | write (piece : Piece)
  | set (role : Role) (style : Style)
  | reset
  deriving DecidableEq, Repr

/-- What the rows of one diagnostic share. -/
structure Pencil where
  glyphs : Glyphs
  theme : Theme
  severity : Severity

namespace Pencil

variable (pencil : Pencil)

def set (role : Role) : Event :=
  .set role (pencil.theme.style role)

def setLabel (style : LabelStyle) : Event :=
  pencil.set (.label pencil.severity style)

/-- A text in a role of its own. -/
def within (role : Role) (piece : Piece) : List Event :=
  [pencil.set role, .write piece, .reset]

def inLabel (style : LabelStyle) (piece : Piece) : List Event :=
  pencil.within (.label pencil.severity style) piece

/-!
# The left side of a row
-/

def outerGutter (padding : Nat) : List Event :=
  (if 0 < padding then [.write (.blanks padding)] else []) ++ [.write " "]

def numbered (padding : Nat) (number : Int) : List Event :=
  pencil.within .lineNumber (.numeral padding number) ++ [.write " "]

def border : List Event :=
  pencil.within .sourceBorder pencil.glyphs.border

def stroke : BracketEnd → String
  | .top => pencil.glyphs.topStroke
  | .bottom => pencil.glyphs.bottomStroke

def corner : BracketEnd → String
  | .top => pencil.glyphs.topCorner
  | .bottom => pencil.glyphs.bottomCorner

/-- Beside a crossed bar the run is always drawn with the stroke of a top. -/
def gutterCell : GutterCell → List Event
  | .blank => [.write "  "]
  | .bar style => .write " " :: pencil.inLabel style pencil.glyphs.bar
  | .corner stop style => .write " " :: pencil.inLabel style (pencil.corner stop)
  | .run stop style => pencil.inLabel style (.repeated 2 (pencil.stroke stop))
  | .crossing under style =>
      pencil.inLabel under pencil.glyphs.topStroke ++ pencil.inLabel style pencil.glyphs.bar

def gutter (cells : List GutterCell) : List Event :=
  cells.flatMap pencil.gutterCell

/-- The left side of every row of a snippet that has no line number. -/
def leftSide (padding : Nat) (cells : List GutterCell) : List Event :=
  outerGutter padding ++ pencil.border ++ pencil.gutter cells

/-!
# Contents
-/

def sourceText (placed : PlacedChar) : Piece :=
  if placed.char = '\t' then .blanks placed.width else .text (String.singleton placed.char)

/-- The primary role is set and reset where the covered characters begin and end. -/
def highlight (before after : Bool) : List Event :=
  if after && !before then [pencil.setLabel .primary]
  else if !after && before then [.reset]
  else []

def sourceCells (highlighted : Bool) : List SourceCell → List Event
  | [] => if highlighted then [.reset] else []
  | cell :: rest =>
      pencil.highlight highlighted cell.primary ++
        .write (sourceText cell.placed) :: sourceCells cell.primary rest

/-- The left side of a source row. -/
def sourceSide (padding : Nat) (number : Int) (cells : List GutterCell) : List Event :=
  pencil.numbered padding number ++ pencil.border ++ pencil.gutter cells ++ [.write " "]

def caretText (cell : CaretCell) : List Event :=
  match cell.style with
  | some .primary => [.write (.repeated cell.width pencil.glyphs.primaryCaret)]
  | some .secondary => [.write (.repeated cell.width pencil.glyphs.secondaryCaret)]
  | none => if cell.drawn then [.write (.blanks cell.width)] else []

def caretCells (current : Option LabelStyle) : List CaretCell → List Event
  | [] => if current.isSome then [.reset] else []
  | cell :: rest =>
      let switch :=
        if cell.style = current then []
        else
          match cell.style with
          | some style => [pencil.setLabel style]
          | none => [.reset]
      switch ++ pencil.caretText cell ++ caretCells cell.style rest

/-- A pointer takes a column of the blanks beside it. Without one they are written even where the
character has no width. -/
def pointerCell (cell : PointerCell) : List Event :=
  match cell.style with
  | some style =>
      pencil.inLabel style pencil.glyphs.pointer ++
        (if cell.drawn && 1 < cell.width then [.write (.blanks (cell.width - 1))] else [])
  | none => if cell.drawn then [.write (.blanks cell.width)] else []

def bracketCaret : LabelStyle → String
  | .primary => pencil.glyphs.primaryBracketStart
  | .secondary => pencil.glyphs.secondaryBracketStart

/-- The strokes of a run are written character by character. -/
def bracketRun (stop : BracketEnd) (style : LabelStyle) (run : List Nat) (message : String) :
    List Event :=
  pencil.setLabel style ::
    run.map (fun width => .write (.repeated width (pencil.stroke stop))) ++
  [.write (pencil.bracketCaret style)] ++
  (if message.isEmpty then [] else [.write (" " ++ message)]) ++ [.reset]

def header (locus : Option Locus) (code : Option String) (message : String) : List Event :=
  (match locus with
    | some locus => [.write (.locus locus), .write ": "]
    | none => []) ++
  [pencil.set (.header pencil.severity), .write pencil.severity.name] ++
  (match code with
    | some code => if code.isEmpty then [] else [.write ("[" ++ code ++ "]")]
    | none => []) ++
  [pencil.set .headerMessage, .write (": " ++ message), .reset]

/-!
# Rows
-/

def content (padding : Nat) : Row → List Event
  | .header locus code message => pencil.header locus code message
  | .blank => []
  | .start locus =>
      outerGutter padding ++ pencil.within .sourceBorder pencil.glyphs.snippetStart ++
        [.write " ", .write (.locus locus)]
  | .source number cells chars =>
      pencil.sourceSide padding number cells ++ pencil.sourceCells false chars
  | .carets cells carets trailing =>
      pencil.leftSide padding cells ++ .write " " :: pencil.caretCells none carets ++
        (match trailing with
          | some (style, message) => .write " " :: pencil.inLabel style message
          | none => [])
  | .pointers cells pointers =>
      pencil.leftSide padding cells ++ .write " " :: pointers.flatMap pencil.pointerCell
  | .hanging cells pointers style message =>
      pencil.leftSide padding cells ++ .write " " :: pointers.flatMap pencil.pointerCell ++
        pencil.inLabel style message
  | .bracket cells stop style run message =>
      pencil.leftSide padding cells ++ pencil.bracketRun stop style run message
  | .empty cells => pencil.leftSide padding cells
  | .gap cells =>
      outerGutter padding ++ pencil.within .sourceBorder pencil.glyphs.borderBreak ++
        pencil.gutter cells
  | .note isFirst text =>
      outerGutter padding ++
        (if isFirst then pencil.within .noteBullet pencil.glyphs.noteBullet
          else [.write " "]) ++
        [.write " ", .write text]

/-- The events of a row, its line end included. -/
def row (padding : Nat) (row : Row) : List Event :=
  pencil.content padding row ++ [.write "\n"]

end Pencil
end SourceReport

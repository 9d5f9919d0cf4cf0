import SourceReport.Display.Line
import SourceReport.Severity
import SourceReport.Source.FileBase

/-!
# Rows of a report

A report is drawn row by row. A row of a snippet shows, from left to right, the line number or a
blank, the border, the gutter with one cell for each bracket, and its content.
-/

namespace SourceReport

/-- The two ends of a bracket. -/
inductive BracketEnd where
  | top | bottom
  deriving DecidableEq, Repr

/-- A gutter cell is two columns wide. -/
inductive GutterCell where
  | blank
  | bar (style : LabelStyle)
  | corner (stop : BracketEnd) (style : LabelStyle)
  /-- The horizontal run of a bracket whose corner stands further left. -/
  | run (stop : BracketEnd) (style : LabelStyle)
  /-- A bar that the run of another bracket crosses. -/
  | crossing (under style : LabelStyle)
  deriving DecidableEq, Repr

/-- A character of the source, and whether a primary label covers it. -/
structure SourceCell where
  placed : PlacedChar
  primary : Bool
  deriving DecidableEq, Repr

/-- What stands under a character: carets, or blanks of the same width, or nothing. -/
structure CaretCell where
  style : Option LabelStyle
  width : Nat
  drawn : Bool
  deriving DecidableEq, Repr

/-- What stands under a character where messages hang: a pointer or none, and blanks that fill its
width where they are drawn. -/
structure PointerCell where
  style : Option LabelStyle
  width : Nat
  drawn : Bool
  deriving DecidableEq, Repr

inductive Row where
  | header (locus : Option Locus) (code : Option String) (message : String)
  | blank
  | start (locus : Locus)
  | source (number : Int) (gutter : List GutterCell) (cells : List SourceCell)
  | carets (gutter : List GutterCell) (cells : List CaretCell)
      (trailing : Option (LabelStyle × String))
  | pointers (gutter : List GutterCell) (cells : List PointerCell)
  | hanging (gutter : List GutterCell) (cells : List PointerCell) (style : LabelStyle)
      (message : String)
  /-- A bracket's run over characters of the given widths, and the caret at its end. -/
  | bracket (gutter : List GutterCell) (stop : BracketEnd) (style : LabelStyle) (run : List Nat)
      (message : String)
  | empty (gutter : List GutterCell)
  | gap (gutter : List GutterCell)
  | note (isFirst : Bool) (text : String)
  deriving DecidableEq, Repr

namespace Row

/-- The label message that a row prints, if it prints one. -/
def message? : Row → Option String
  | .carets _ _ (some (_, message)) => some message
  | .hanging _ _ _ message => some message
  | .bracket _ _ _ _ message => if message.isEmpty then none else some message
  | _ => none

end Row
end SourceReport

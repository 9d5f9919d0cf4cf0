import SourceReport.Plan.Mark
import SourceReport.Row

/-!
# Gutters

The gutter has a cell for every bracket of the file. Which cell an entry shows depends on the kind
of row: a source row draws the corner of a bracket that begins in the indentation, the rows below it
draw bars, and a bracket's own row draws its corner and its run.
-/

namespace SourceReport
namespace Gutter

def cells (columns : Nat) (cell : Nat → GutterCell) : List GutterCell :=
  (List.range columns).map cell

/-- The gutter of a source line with the given indentation. -/
def ofSource (entries : List BracketEntry) (columns indent : Nat) : List GutterCell :=
  cells columns fun column =>
    match BracketEntry.atColumn? entries column with
    | none => .blank
    | some entry =>
        match entry.part with
        | .top start => if start ≤ indent then .corner .top entry.style else .blank
        | .left => .bar entry.style
        | .bottom _ _ => .bar entry.style

/-- The gutter of the rows that belong to a line without being its source row. -/
def ofLine (entries : List BracketEntry) (columns : Nat) : List GutterCell :=
  cells columns fun column =>
    match BracketEntry.atColumn? entries column with
    | none => .blank
    | some entry =>
        match entry.part with
        | .top _ => .blank
        | .left => .bar entry.style
        | .bottom _ _ => .bar entry.style

/-!
# The gutter of a bracket row

The run begins at the bracket's own corner and goes on to the right. Every other bracket that is
open beside it shows its bar, which the run crosses once it has begun.
-/

abbrev Run := Option (BracketEnd × LabelStyle)

def runCell : Run → GutterCell
  | none => .blank
  | some (stop, style) => .run stop style

def barCell (run : Run) (style : LabelStyle) : GutterCell :=
  match run with
  | none => .bar style
  | some (_, under) => .crossing under style

/-- The entry that a column shows, with its place among the entries: of several, the last. -/
def placedAt? (entries : List BracketEntry) (column : Nat) : Option (BracketEntry × Nat) :=
  entries.zipIdx.reverse.find? fun placed => placed.1.column = column

/-- One cell of the row of the entry at `place`, and the run as it leaves the cell. -/
def bracketCell (entries : List BracketEntry) (place : Nat) (run : Run) (column : Nat) :
    GutterCell × Run :=
  match placedAt? entries column with
  | none => (runCell run, run)
  | some (entry, index) =>
      match entry.part with
      | .left => (barCell run entry.style, run)
      | .top _ =>
          if index < place then (barCell run entry.style, run)
          else if index = place then
            (.corner .top entry.style, some (.top, entry.style))
          else (runCell run, run)
      | .bottom _ _ =>
          if place < index then (barCell run entry.style, run)
          else if index = place then
            (.corner .bottom entry.style, some (.bottom, entry.style))
          else (runCell run, run)

def bracketCells (entries : List BracketEntry) (place : Nat) (run : Run) :
    List Nat → List GutterCell
  | [] => []
  | column :: rest =>
      let (cell, next) := bracketCell entries place run column
      cell :: bracketCells entries place next rest

def ofBracket (entries : List BracketEntry) (columns place : Nat) : List GutterCell :=
  bracketCells entries place none (List.range columns)

end Gutter
end SourceReport

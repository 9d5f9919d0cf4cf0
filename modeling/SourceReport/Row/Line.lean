import SourceReport.Row.Gutter

/-!
# The rows of a source line

A line is drawn as its source row, then carets with the messages of its single-line labels, then one
row for each bracket that begins or ends on it.
-/

namespace SourceReport
namespace Line

/-!
# Highlighting
-/

/-- Whether a character is covered by a primary label. -/
def inPrimary (placed : PlacedChar) (marks : List SingleMark) (entries : List BracketEntry) :
    Bool :=
  let range := placed.byteRange
  marks.any (fun mark => mark.style = .primary && overlaps mark.range range) ||
    entries.any fun entry =>
      entry.style = .primary &&
        match entry.part with
        | .top start => start ≤ range.1
        | .left => true
        | .bottom stop _ => range.2 ≤ stop

def sourceCells (placed : List PlacedChar) (marks : List SingleMark)
    (entries : List BracketEntry) : List SourceCell :=
  placed.map fun one => { placed := one, primary := inPrimary one marks entries }

/-!
# Carets

Under the last character there is room for one more caret, which points just past the line. The
message of the label that ends last may follow the carets; the others hang below.
-/

def maxStart (marks : List SingleMark) : Int :=
  (marks.map (·.start)).foldl max 0

def maxStop (marks : List SingleMark) : Int :=
  (marks.map (·.stop)).foldl max 0

/-- The last mark that ends where the marks so far end, given the greatest end before it. Nothing is
returned if that mark has no message. -/
def lastToStop (reach : Int) (found : Option Nat) (place : Nat) : List SingleMark → Option Nat
  | [] => found
  | mark :: rest =>
      let reach := max reach mark.stop
      let found :=
        if mark.stop = reach then (if mark.message.isEmpty then none else some place) else found
      lastToStop reach found (place + 1) rest

/-- Whether the mark at a place overlaps any other. -/
def isCovered (marks : List SingleMark) (place : Nat) : Bool :=
  match marks[place]? with
  | none => false
  | some mark =>
      marks.zipIdx.any fun other => other.2 ≠ place && overlaps mark.range other.1.range

/-- The mark whose message follows the carets, by its place. -/
def trailing? (marks : List SingleMark) : Option Nat :=
  (lastToStop 0 none 0 marks).filter fun place => !isCovered marks place

/-- The marks with a message that does not follow the carets. -/
def hangingMarks (marks : List SingleMark) : List SingleMark :=
  (marks.zipIdx.filter fun mark =>
    !mark.1.message.isEmpty && some mark.2 ≠ trailing? marks).map (·.1)

/-- The place just after the line. -/
def placeholder (line : List Char) : PlacedChar where
  char := '\x00'
  byteIndex := byteLength line
  byteLength := 1
  width := 1

def caretCell (marks : List SingleMark) (placed : PlacedChar) : CaretCell :=
  let style :=
    LabelStyle.strongest?
      ((marks.filter fun mark => overlaps mark.range placed.byteRange).map (·.style))
  { style, width := placed.width
    drawn := style.isSome || (placed.byteIndex : Int) < maxStop marks }

def caretCells (line : List Char) (placed : List PlacedChar) (marks : List SingleMark) :
    List CaretCell :=
  (placed ++ [placeholder line]).map (caretCell marks)

/-!
# Hanging messages

A pointer stands under the start of each hanging label, from the pointer row down to the row of its
message.
-/

def pointerCell (reach : Int) (hanging : List SingleMark) (placed : PlacedChar) : PointerCell :=
  let range := placed.byteRange
  let style :=
    LabelStyle.strongest?
      ((hanging.filter fun mark => range.1 ≤ mark.start && mark.start < range.2).map (·.style))
  { style, width := placed.width, drawn := (placed.byteIndex : Int) ≤ reach }

def pointerCells (reach : Int) (hanging : List SingleMark) (placed : List PlacedChar) :
    List PointerCell :=
  placed.map (pointerCell reach hanging)

def hangingRow (gutter : List GutterCell) (reach : Int) (hanging : List SingleMark)
    (placed : List PlacedChar) (mark : SingleMark) : Row :=
  .hanging gutter
    (pointerCells reach hanging
      (placed.takeWhile fun one => (one.byteIndex : Int) < mark.start))
    mark.style mark.message

def trailingText (marks : List SingleMark) : Option (LabelStyle × String) :=
  (trailing? marks).bind fun place =>
    marks[place]?.map fun mark => (mark.style, mark.message)

/-- The rows of the single-line labels, of which there is at least one. -/
def markRows (gutter : List GutterCell) (line : List Char) (placed : List PlacedChar)
    (marks : List SingleMark) : List Row :=
  let hanging := hangingMarks marks
  let reach := maxStart marks
  let carets := Row.carets gutter (caretCells line placed marks) (trailingText marks)
  if hanging.isEmpty then [carets]
  else
    carets :: .pointers gutter (pointerCells reach hanging placed) ::
      hanging.reverse.map (hangingRow gutter reach hanging placed)

/-!
# Brackets
-/

/-- The widths of the characters that begin before `stop`. -/
def widthsBefore (placed : List PlacedChar) (stop : Int) : List Nat :=
  (placed.takeWhile fun one => (one.byteIndex : Int) < stop).map (·.width)

/-- The row of the entry at `place`, unless the gutter of the source row already shows its corner. -/
def bracketRow? (entries : List BracketEntry) (columns indent : Nat) (placed : List PlacedChar)
    (entry : BracketEntry) (place : Nat) : Option Row :=
  let gutter := Gutter.ofBracket entries columns place
  match entry.part with
  | .left => none
  | .top start =>
      if start ≤ indent then none
      else some (.bracket gutter .top entry.style (widthsBefore placed (start + 1)) "")
  | .bottom stop message =>
      some (.bracket gutter .bottom entry.style (widthsBefore placed stop) message)

def bracketRows (entries : List BracketEntry) (columns indent : Nat)
    (placed : List PlacedChar) : List Row :=
  entries.zipIdx.filterMap fun (entry, place) =>
    bracketRow? entries columns indent placed entry place

/-!
# The line as a whole
-/

/-- All rows of a line of text, which may still have its line ending. -/
def rows (tabWidth : Nat) (number : Int) (text : String) (marks : List SingleMark)
    (columns : Nat) (entries : List BracketEntry) : List Row :=
  let line := trimTrailing text.toList
  let placed := place tabWidth line
  let source :=
    Row.source number (Gutter.ofSource entries columns (indent line))
      (sourceCells placed marks entries)
  let single :=
    if marks.isEmpty then []
    else markRows (Gutter.ofLine entries columns) line placed marks
  source :: single ++ bracketRows entries columns (indent line) placed

end Line
end SourceReport

import SourceReport.Failure
import SourceReport.Plan

/-!
# Drafts

A plan is drafted label by label. A label finds the file that it belongs to, or begins it, and each
line that it touches is found among the lines of that file or added to them. The first label that
has no place in its file ends the draft, and so does the first line number that is too long to be
counted.
-/

namespace SourceReport

namespace PlannedLine

/-- A line that no label has asked for. -/
def blank (lookup : Lookup) (line : LineSpan) : PlannedLine where
  index := line.index
  number := lookup.lineNumber line.index
  range := line.range
  mustRender := false
  single := []
  brackets := []

def require (line : PlannedLine) : PlannedLine :=
  { line with mustRender := true }

def addSingle (mark : SingleMark) (line : PlannedLine) : PlannedLine :=
  { line with single := SingleMark.insert line.single mark, mustRender := true }

/-- Whether a line is shown for a bracket counts beside what other labels asked for. -/
def addBracket (entry : BracketEntry) (shown : Bool) (line : PlannedLine) : PlannedLine :=
  { line with
    brackets := line.brackets ++ [entry]
    mustRender := line.mustRender || shown }

end PlannedLine

namespace Plan

/-- The length of a line number. -/
def counted (number : Int) : Except Raised Nat :=
  match Fault.ofNumber? number with
  | some fault => .error (.fault fault)
  | none => .ok (countDigits number)

structure Draft where
  files : List PlannedFile := []
  /-- The bytes of each file under the id that it was first mentioned by. -/
  encoded : List (Scalar × List UInt8) := []
  padding : Nat := 0

namespace Draft

variable (lookup : Lookup) (options : Options)

/-!
# Lines
-/

/-- Changes the line at a span, which is put in its place first if it is missing. -/
def onLine (span : LineSpan) (change : PlannedLine → PlannedLine) :
    List PlannedLine → List PlannedLine
  | [] => [change (.blank lookup span)]
  | line :: rest =>
      if span.index < line.index then change (.blank lookup span) :: line :: rest
      else if span.index = line.index then change line :: rest
      else line :: onLine span change rest

def onLines (changes : List (LineSpan × (PlannedLine → PlannedLine))) (lines : List PlannedLine) :
    List PlannedLine :=
  changes.foldl (fun lines change => onLine lookup change.1 change.2 lines) lines

/-- The lines around a label are shown. -/
def contextChanges (label : Label) (first last : Nat) :
    List (LineSpan × (PlannedLine → PlannedLine)) :=
  (Placement.contextBefore lookup label.file options.before first ++
      Placement.contextAfter lookup label.file options.after last).map
    fun span => (span, PlannedLine.require)

def singleMark (label : Label) (span : LineSpan) : SingleMark :=
  let start : Int := label.start - span.range.1
  { style := label.style
    start
    stop := max (label.stop - span.range.1) (start + 1)
    message := label.message }

/-- The lines strictly inside a bracket, and the length of the longest of their numbers. -/
def inside (file : Scalar) : List Nat → Except Raised (List LineSpan × Nat)
  | [] => .ok ([], 0)
  | line :: rest => do
      let width ← counted (lookup.lineNumber line)
      let range ← raising (lookup.lineRange file line)
      let (spans, widest) ← inside file rest
      return (⟨line, range⟩ :: spans, max width widest)

/-- The parts of a bracket in a gutter column: the lines at its two ends are shown, and of those
between them the ones that are close enough to an end. -/
def bracketChanges (label : Label) (column : Nat) (first last : LineSpan)
    (middle : List LineSpan) : List (LineSpan × (PlannedLine → PlannedLine)) :=
  let entry (part : BracketPart) : BracketEntry := { column, style := label.style, part }
  let isClose (span : LineSpan) : Bool :=
    span.index - first.index ≤ options.startContext || last.index - span.index ≤ options.endContext
  (first, PlannedLine.addBracket (entry (.top (label.start - first.range.1))) true) ::
    middle.map (fun span => (span, PlannedLine.addBracket (entry .left) (isClose span))) ++
    [(last, PlannedLine.addBracket
      (entry (.bottom (label.stop - last.range.1) label.message)) true)]

/-- Marks the lines of a label between its first and its last one. -/
def markLines (label : Label) (first last : LineSpan) (file : PlannedFile) :
    Except Raised (PlannedFile × Nat) := do
  let lines := onLines lookup (contextChanges lookup options label first.index last.index) file.lines
  if first.index = last.index then
    let single := PlannedLine.addSingle (singleMark label first)
    return ({ file with lines := onLine lookup first single lines }, 0)
  else
    let (middle, widest) ←
      inside lookup label.file (List.range' (first.index + 1) (last.index - (first.index + 1)))
    let brackets := bracketChanges options label file.numBrackets first last middle
    return ({ file with
      numBrackets := file.numBrackets + 1
      lines := onLines lookup brackets lines }, widest)

/-!
# Files
-/

/-- The bytes of a file. They are asked for when it is mentioned first. -/
def bytes (draft : Draft) (file : Scalar) : Except Raised (Draft × List UInt8) :=
  match draft.encoded.find? fun known => known.1.same file with
  | some known => .ok (draft, known.2)
  | none => do
      let bytes ← raising (lookup.encoded file)
      return ({ draft with encoded := draft.encoded ++ [(file, bytes)] }, bytes)

def begin (label : Label) : Except Raised PlannedFile := do
  let name ← raising (lookup.name label.file)
  let location ← raising (lookup.location label.file label.start)
  return {
    id := label.file
    start := label.start
    name
    locus := { name, location }
    style := label.style
    numBrackets := 0
    lines := [] }

/-- A snippet is anchored at the label that is the best one so far. -/
def anchor (label : Label) (file : PlannedFile) : Except Raised PlannedFile :=
  if (file.style = .secondary ∧ label.style = .primary) ∨
      (file.style = label.style ∧ label.start < file.start) then do
    let location ← raising (lookup.location label.file label.start)
    return { file with
      start := label.start
      locus := { name := file.name, location }
      style := label.style }
  else .ok file

/-- Changes the file of a label, which is begun at the end if no label has named it. -/
def onFile (label : Label) (change : PlannedFile → Except Raised (PlannedFile × Nat)) :
    List PlannedFile → Except Raised (List PlannedFile × Nat)
  | [] => do
      let (file, width) ← change (← begin lookup label)
      return ([file], width)
  | file :: rest =>
      if file.id.same label.file then do
        let (file, width) ← change (← anchor lookup label file)
        return (file :: rest, width)
      else do
        let (rest, width) ← onFile label change rest
        return (file :: rest, width)

/-!
# Labels
-/

def addLabel (draft : Draft) (label : Label) : Except Raised Draft := do
  let (draft, bytes) ← draft.bytes lookup label.file
  raising (Slice.checkRange bytes label.start label.stop)
  let first ← raising (lookup.lineIndex label.file label.start)
  let firstRange ← raising (lookup.lineRange label.file first)
  let last ← raising (lookup.lineIndex label.file label.stop)
  let lastRange ← raising (lookup.lineRange label.file last)
  let firstWidth ← counted (lookup.lineNumber first)
  let lastWidth ← counted (lookup.lineNumber last)
  let (files, width) ←
    onFile lookup label (markLines lookup options label ⟨first, firstRange⟩ ⟨last, lastRange⟩)
      draft.files
  return { draft with files, padding := max (max draft.padding (max firstWidth lastWidth)) width }

def addLabels (draft : Draft) : List Label → Except Raised Draft
  | [] => .ok draft
  | label :: rest => do (← addLabel lookup options draft label).addLabels rest

end Draft

/-- The plan of labels in the order given. -/
def drafted (lookup : Lookup) (options : Options) (labels : List Label) : Except Raised Plan := do
  let draft ← Draft.addLabels lookup options {} labels
  return { files := draft.files, padding := draft.padding }

end Plan
end SourceReport

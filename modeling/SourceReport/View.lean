import SourceReport.Plan
import SourceReport.Row.Line
import SourceReport.Text.Split
import SourceReport.Trace

/-!
# Views

A view lays a diagnostic out as a sequence of steps: rows to draw, traces, and the failure at which
the drawing ends if it cannot be completed. The rich view shows annotated source, the short view
one header for each primary label, and the medium view adds the notes to the short one.
-/

namespace SourceReport

inductive Step where
  | trace (trace : Trace)
  | row (padding : Nat) (row : Row)
  | fail (failure : Failure)
  deriving DecidableEq, Repr

namespace View

def noteRows (note : String) : List Row :=
  (splitLines note.toList).zipIdx.map fun (line, index) =>
    .note (index = 0) (String.ofList line)

def noteSteps (padding : Nat) (notes : List String) : List Step :=
  notes.flatMap fun note => (noteRows note).map (.row padding)

/-!
# The rich view
-/

namespace Rich

variable (lookup : Lookup) (options : Options) (padding : Nat) (file : PlannedFile)
  (bytes : List UInt8)

def emptyRow : Step :=
  .row padding (.empty (Gutter.ofLine [] file.numBrackets))

def lineSteps (number : Int) (range : Int × Int) (marks : List SingleMark)
    (entries : List BracketEntry) : List Step :=
  match Slice.slice bytes range.1 range.2 with
  | .error failure => [.fail failure]
  | .ok text =>
      (Line.rows options.tabWidth number text marks file.numBrackets entries).map (.row padding)

def plannedLineSteps (line : PlannedLine) : List Step :=
  lineSteps options padding file bytes line.number line.range line.single line.brackets

/-- A line that is skipped alone is drawn after all, with its brackets only. -/
def hiddenLineSteps (index : Nat) : List Step :=
  match lookup.lineRange file.id index with
  | .error failure => [.fail failure]
  | .ok range =>
      lineSteps options padding file bytes (lookup.lineNumber index) range []
        ((file.line? index).elim [] (·.brackets))

/-- What stands between two lines that are shown in succession. -/
def betweenSteps (line next : PlannedLine) : List Step :=
  if next.index = line.index + 2 then
    hiddenLineSteps lookup options padding file bytes (line.index + 1)
  else if line.index + 2 < next.index then
    [.row padding (.gap (Gutter.ofLine next.brackets file.numBrackets))]
  else []

def linesSteps : List PlannedLine → List Step
  | [] => []
  | line :: rest =>
      plannedLineSteps options padding file bytes line ++
        (match rest with
          | [] => []
          | next :: _ => betweenSteps lookup options padding file bytes line next) ++
        linesSteps rest

/-- The snippet of one file; a further file or a note below it is set off by an empty row. -/
def fileSteps (isClosed : Bool) : List Step :=
  match lookup.encoded file.id with
  | .error failure => [.fail failure]
  | .ok bytes =>
      (if file.lines.isEmpty then []
        else [.row padding (.start file.locus), emptyRow padding file]) ++
      .trace (.drawing file.renderedLines.length file.lines.length file.name) ::
        linesSteps lookup options padding file bytes file.renderedLines ++
      (if isClosed then [emptyRow padding file] else [])

def filesSteps (hasNotes : Bool) : List PlannedFile → List Step
  | [] => []
  | file :: rest =>
      fileSteps lookup options padding file (!rest.isEmpty || hasNotes) ++
        filesSteps hasNotes rest

def planSteps (diagnostic : Diagnostic) (plan : Plan) : List Step :=
  .trace (.planned diagnostic.labels.length plan.files.length plan.padding) ::
    .row plan.padding (.header none diagnostic.code diagnostic.message) ::
    filesSteps lookup options plan.padding (!diagnostic.notes.isEmpty) plan.files ++
    noteSteps plan.padding diagnostic.notes ++ [.row plan.padding .blank]

def steps (diagnostic : Diagnostic) : List Step :=
  match Plan.ofDiagnostic lookup options diagnostic with
  | .error failure => [.fail failure]
  | .ok plan => planSteps lookup options diagnostic plan

end Rich

/-!
# The short and the medium view
-/

namespace Short

variable (lookup : Lookup)

/-- Every label must lie in its file, whether or not it is shown. -/
def checkLabels : List Label → Except Failure Unit
  | [] => .ok ()
  | label :: rest => do
      Slice.checkRange (← lookup.encoded label.file) label.start label.stop
      checkLabels rest

def headerStep (diagnostic : Diagnostic) (label : Label) : Step :=
  match lookup.locus label.file label.start with
  | .error failure => .fail failure
  | .ok locus => .row 0 (.header (some locus) diagnostic.code diagnostic.message)

def headerSteps (diagnostic : Diagnostic) : List Step :=
  if diagnostic.primaryLabels.isEmpty then
    [.row 0 (.header none diagnostic.code diagnostic.message)]
  else diagnostic.primaryLabels.map (headerStep lookup diagnostic)

def steps (withNotes : Bool) (diagnostic : Diagnostic) : List Step :=
  match checkLabels lookup diagnostic.labels with
  | .error failure => [.fail failure]
  | .ok () =>
      headerSteps lookup diagnostic ++
        (if withNotes then noteSteps 0 diagnostic.notes else [])

end Short

def steps (lookup : Lookup) (options : Options) (diagnostic : Diagnostic) : List Step :=
  match options.displayStyle with
  | .rich => Rich.steps lookup options diagnostic
  | .medium => Short.steps lookup true diagnostic
  | .short => Short.steps lookup false diagnostic

end View
end SourceReport

import SourceReport.Document
import SourceReport.Overflow

/-!
# Reports of documents

A document's diagnostics are drawn like any others, except that only texts can be drawn: a message
beside a mark, or a note, that was given as something else ends the run where it would be drawn. A
broken text can be drawn, but what is drawn with it cannot be written out.
-/

namespace SourceReport
namespace Document

namespace Entry

/-- Whether a label is drawn under the given line alone, with a message that is no text. -/
def isUndrawable (lookup : Lookup) (line : Nat) (entry : LabelEntry) : Bool :=
  let label := entry.label
  let lineOf (offset : Nat) : Option Nat := (lookup.lineIndex label.file offset).toOption
  !entry.message.isText && !entry.message.isBlank &&
    lineOf label.start = some line && lineOf label.stop = some line

def hasUndrawableMark (lookup : Lookup) (file : PlannedFile) (entry : Entry) (line : Nat) : Bool :=
  entry.labels.any fun label =>
    file.id.same label.label.file && isUndrawable lookup line label

/-- Escaping a message asks more of it than writing it does. -/
def messageFault : EmitterKind → Fault
  | .markup => .unsupported
  | .plain => .wrongKind
  | .ansi => .wrongKind
  | .debug => .wrongKind

end Entry

/-!
# Stretches

The drawing of an entry is that of its diagnostic, broken off where something is to be drawn that is
no text.
-/

/-- What comes next in a drawing: a step, or a fault that ends it. -/
inductive Stretch where
  | step (step : Step)
  | halt (fault : Fault)

/-- The steps before the first halt, and its fault. -/
def Stretch.upToHalt : List Stretch → List Step × Option Fault
  | [] => ([], none)
  | .halt found :: _ => ([], some found)
  | .step next :: rest =>
      let (steps, found) := upToHalt rest
      (next :: steps, found)

namespace Entry

section Stretches

variable (lookup : Lookup) (options : Options) (kind : EmitterKind) (entry : Entry)

/-- Below a line stand the messages of its marks. -/
def markStretches (file : PlannedFile) (line : PlannedLine) : List Stretch :=
  if hasUndrawableMark lookup file entry line.index then [.halt (messageFault kind)] else []

def lineStretches (padding : Nat) (file : PlannedFile) (bytes : List UInt8) :
    List PlannedLine → List Stretch
  | [] => []
  | line :: rest =>
      (View.Rich.plannedLineSteps options padding file bytes line).map .step ++
        markStretches lookup kind entry file line ++
        (match rest with
          | [] => []
          | next :: _ =>
              (View.Rich.betweenSteps lookup options padding file bytes line next).map .step) ++
        lineStretches padding file bytes rest

def fileStretches (padding : Nat) (file : PlannedFile) (isClosed : Bool) : List Stretch :=
  match lookup.encoded file.id with
  | .error failure => [.step (.fail failure)]
  | .ok bytes =>
      (if file.lines.isEmpty then []
        else [.step (.row padding (.start file.locus)),
          .step (View.Rich.emptyRow padding file)]) ++
      .step (.trace (.drawing file.renderedLines.length file.lines.length file.name)) ::
        lineStretches lookup options kind entry padding file bytes file.renderedLines ++
      (if isClosed then [.step (View.Rich.emptyRow padding file)] else [])

def filesStretches (padding : Nat) : List PlannedFile → List Stretch
  | [] => []
  | file :: rest =>
      fileStretches lookup options kind entry padding file
          (!rest.isEmpty || !entry.notes.isEmpty) ++
        filesStretches padding rest

def noteStretches (padding : Nat) (notes : List Value) : List Stretch :=
  notes.flatMap fun note =>
    if note.isText then (View.noteRows note.shown).map fun row => .step (.row padding row)
    else [.halt .unsupported]

def planStretches (plan : Plan) : List Stretch :=
  let diagnostic := entry.diagnostic
  .step (.trace (.planned diagnostic.labels.length plan.files.length plan.padding)) ::
    .step (.row plan.padding (.header none diagnostic.code diagnostic.message)) ::
    filesStretches lookup options kind entry plan.padding plan.files ++
    noteStretches plan.padding entry.notes ++ [.step (.row plan.padding .blank)]

def shortStretches (withNotes : Bool) : List Stretch :=
  (View.Short.headerSteps lookup entry.diagnostic).map .step ++
    (if withNotes then noteStretches 0 entry.notes else [])

/-- What is drawn for an entry, or the failure at which its labels are refused. -/
def stretches : Except SourceReport.Failure (List Stretch) :=
  match options.displayStyle with
  | .rich =>
      (Plan.ofDiagnostic lookup options entry.diagnostic).map
        (planStretches lookup options kind entry)
  | .medium =>
      (View.Short.checkLabels lookup entry.diagnostic.labels).map fun _ =>
        shortStretches lookup entry true
  | .short =>
      (View.Short.checkLabels lookup entry.diagnostic.labels).map fun _ =>
        shortStretches lookup entry false

end Stretches

end Entry

/-!
# Entries
-/

section Entries

variable (machine : Machine) (lookup : Lookup) (options : Options) (kind : EmitterKind)

/-- Draws stretches. An entry counts only if it was drawn completely. -/
def addStretches (report : Report) (entry : Entry) (stretches : List Stretch) : Overflow.Drawing :=
  let (steps, halt) := Stretch.upToHalt stretches
  let pencil := Report.pencil options kind.theme entry.diagnostic
  let drawn := Overflow.perform machine pencil report steps
  if drawn.isComplete then
    match halt with
    | some fault => { drawn with fault := some fault }
    | none => { report := { drawn.report with count := drawn.report.count + 1 } }
  else drawn

/-- Draws one more entry. -/
def addEntry (report : Report) (entry : Entry) : Overflow.Drawing :=
  match Overflow.ofPlan? lookup options entry.diagnostic with
  | some fault => { report, fault := some fault }
  | none =>
      match entry.stretches lookup options kind with
      | .error failure => .ofRaised report failure.raised
      | .ok stretches => addStretches machine options kind report entry stretches

/-- Draws entries in order, and tells how many when all are drawn. -/
def addEntries (report : Report) : List Entry → Overflow.Drawing
  | [] => { report := { report with traces := report.traces ++ [.emitted report.count] } }
  | entry :: rest =>
      let drawn := addEntry machine lookup options kind report entry
      if drawn.isComplete then addEntries drawn.report rest else drawn

end Entries

/-!
# Broken texts
-/

/-- The name that a label's file was given. -/
def nameOf? (document : Document) (entry : LabelEntry) : Option Value :=
  (entry.label.file.whole?.bind fun id => document.files[id.toNat]?).map (·.name)

/-- The values that are drawn for an entry. -/
def drawnValues (document : Document) (style : DisplayStyle) (entry : Entry) : List Value :=
  let header := [entry.code, entry.message]
  let primary := entry.labels.filter (·.label.style = .primary)
  match style with
  | .short => header ++ primary.filterMap document.nameOf?
  | .medium => header ++ primary.filterMap document.nameOf? ++ entry.notes
  | .rich =>
      header ++ entry.labels.filterMap document.nameOf? ++ entry.labels.map (·.message) ++
        entry.notes

def drawsBroken (document : Document) (style : DisplayStyle) : Bool :=
  document.entries.any fun entry => (document.drawnValues style entry).any Value.isBroken

def reportEntries (document : Document) (options : Options) (kind : EmitterKind)
    (machine : Machine := {}) : Overflow.Drawing :=
  addEntries machine document.base.lookup options kind { emitter := { kind } } document.entries

end Document
end SourceReport

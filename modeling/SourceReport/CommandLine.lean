import SourceReport.CommandLine.Arguments
import SourceReport.Document.Report
import SourceReport.Json.Writer
import SourceReport.Sample
import SourceReport.Settings.Load
import SourceReport.SvgPage

/-!
# The command line

The program as a function of its arguments and of the files that it can see: what it writes to its
two outputs, and the status that it ends with. Status 2 stands for arguments that are not understood,
status 1 for a failure or for diagnostics that are errors.
-/

namespace SourceReport
namespace CommandLine

structure Outcome where
  status : Nat
  stdout : String := ""
  stderr : String := ""
  fault : Option Fault := none
  deriving DecidableEq, Repr

def versionText : String := "diagspan, version 0.1.0\n"

def helpText : String := "Usage: diagspan [OPTIONS] COMMAND [ARGS]...\n"

namespace Outcome

def misused : Outcome := { status := 2, stderr := helpText }

end Outcome

/-!
# Plain text

An output that is no terminal is given no escape sequences, wherever they come from. Reports get
them from the emitter for escapes alone.
-/

/-- What follows a control sequence, if the text begins with one. -/
def afterSequence? (text : List Char) : Option (List Char) :=
  match text with
  | '\x1b' :: '[' :: rest =>
      match rest.dropWhile fun c => c = ';' || c = '?' || c.isDigit with
      | c :: after => if c.isAlpha then some after else none
      | [] => none
  | _ => none

/-- The text without its control sequences. The fuel bounds its length. -/
def withoutSequences (fuel : Nat) (text : List Char) : List Char :=
  match fuel, text with
  | 0, _ => []
  | _, [] => []
  | fuel + 1, c :: rest =>
      match afterSequence? (c :: rest) with
      | some after => withoutSequences fuel after
      | none => c :: withoutSequences fuel rest

def plainText (text : String) : String :=
  String.ofList (withoutSequences text.length text.toList)

/-!
# Traces and errors
-/

def shownTraces (program : ProgramArguments) (traces : List Trace) : String :=
  let shown :=
    traces.filter fun trace => program.debug || (program.verbose && !trace.isDetail)
  String.join (shown.map fun trace => trace.line ++ "\n")

def errorText (message : String) : String :=
  plainText ("Error: " ++ message ++ "\n")

/-!
# Commands
-/

def configText (settings : Settings) (validate json : Bool) : String :=
  if validate then "Configuration valid: " ++ settings.pathText
  else if json then Json.write (.table settings.toTable)
  else settings.text

def config (isTerminal : Bool) (settings : Settings) (validate json : Bool) : Outcome :=
  if validate || settings.isWritable then
    let text := configText settings validate json ++ "\n"
    { status := 0, stdout := if isTerminal then text else plainText text }
  else { status := 1, fault := some .longNumber }

def shownOutput (kind : EmitterKind) (text : String) : String :=
  match kind with
  | .ansi => text
  | .plain => plainText text
  | .markup => plainText text
  | .debug => plainText text

def preview (program : ProgramArguments) (mode : PreviewMode) : Outcome :=
  let kind := mode.emitterKind
  let report := Sample.report kind
  let written := report.emitter.sink.written
  let text :=
    match mode with
    | .svg => SvgPage.page written
    | .plain => written
    | .ansi => written
    | .debug => written
  { status := 0
    stdout := shownOutput kind text
    stderr := shownTraces program report.traces }

/-- Settings with the options of the render command in the place of their own. -/
def overridden (settings : Settings) (arguments : RenderArguments) : Settings :=
  let options := settings.options
  let options :=
    { options with
      displayStyle := arguments.displayStyle.getD options.displayStyle
      tabWidth := arguments.tabWidth.getD options.tabWidth
      glyphs := if arguments.ascii then .ascii else options.glyphs }
  match arguments.color with
  | some color => { settings with options, color, emitter := none }
  | none => { settings with options }

def isFailure (entry : Document.Entry) : Bool :=
  decide (Severity.error ≤ entry.severity)

/-- Draws a loaded document. Nothing is written unless all of it could be drawn. -/
def renderDocument (machine : Machine) (isTerminal : Bool) (settings : Settings)
    (document : Document) : List Trace × Outcome :=
  let kind := settings.emitterFor isTerminal
  let drawn := document.reportEntries settings.options kind machine
  let outcome : Outcome :=
    match drawn.fault, drawn.report.failure with
    | some fault, _ => { status := 1, fault := some fault }
    | none, some failure => { status := 1, stderr := errorText failure.message }
    | none, none =>
        if document.drawsBroken settings.options.displayStyle then
          { status := 1, fault := some .unencodable }
        else
          { status := if document.entries.any isFailure then 1 else 0
            stdout := shownOutput kind drawn.report.emitter.sink.written }
  (.emitterChosen kind :: drawn.report.traces, outcome)

def render (program : ProgramArguments) (isTerminal : Bool) (settings : Settings)
    (tree : FileTree) (arguments : RenderArguments) (machine : Machine := {}) : Outcome :=
  let (loading, loaded) := Document.load tree (Path.ofText arguments.document)
  match loaded with
  | .error (.reported error) =>
      { status := 1, stderr := shownTraces program loading ++ errorText error.message }
  | .error (.fault fault) =>
      { status := 1, stderr := shownTraces program loading, fault := some fault }
  | .ok document =>
      let (drawing, outcome) :=
        renderDocument machine isTerminal (overridden settings arguments) document
      { outcome with stderr := shownTraces program (loading ++ drawing) ++ outcome.stderr }

/-!
# The program
-/

/-- Whether a document argument names something that can be read. The name is taken as it stands, so
its whole length counts, and a file is ruled out by an empty part or a single point at its end. -/
def isReadable (tree : FileTree) (text : String) : Bool :=
  let last := (pieces '/' text.toList).getLastD []
  match tree.lookup (Path.ofText text) with
  | .ok (.file _) => text.utf8ByteSize ≤ FileTree.pathLimit && last ≠ [] && last ≠ ['.']
  | _ => false

def settingsErrorText (error : Settings.LoadError) : String :=
  errorText error.message ++
    match error.path? with
    | some path => plainText ("  in: " ++ path ++ "\n")
    | none => ""

def runCommand (program : ProgramArguments) (isTerminal : Bool) (settings : Settings)
    (tree : FileTree) (command : Command) (machine : Machine := {}) : Outcome :=
  match command with
  | .help => { status := 0, stdout := helpText }
  | .config validate json => config isTerminal settings validate json
  | .preview mode => preview program mode
  | .render arguments =>
      match (Path.ofText arguments.document).fault? with
      | some fault => { status := 1, fault := some fault }
      | none =>
          if arguments.surplus.isEmpty && isReadable tree arguments.document then
            render program isTerminal settings tree arguments machine
          else .misused

/-- The settings are loaded before the arguments of the command are looked at. -/
def runNamed (program : ProgramArguments) (isTerminal : Bool) (tree : FileTree)
    (name : CommandName) (args : List String) (machine : Machine := {}) : Outcome :=
  let (traces, loaded) :=
    Settings.load tree (program.config.map fun text => Path.ofText text) machine
  let before := shownTraces program traces
  match loaded with
  | .error (.reported error) => { status := 1, stderr := before ++ settingsErrorText error }
  | .error (.fault fault) => { status := 1, stderr := before, fault := some fault }
  | .ok settings =>
      let outcome : Outcome :=
        match readCommand? name args with
        | none => .misused
        | some command => runCommand program isTerminal settings tree command machine
      { outcome with stderr := before ++ outcome.stderr }

def run (tree : FileTree) (isTerminal : Bool) (args : List String) (machine : Machine := {}) :
    Outcome :=
  match readProgram? args with
  | none => .misused
  | some (program, rest) =>
      if program.showVersion then { status := 0, stdout := versionText }
      else if program.showHelp then { status := 0, stdout := helpText }
      else
        match rest with
        | [] => .misused
        | name :: args =>
            match CommandName.ofName? name with
            | none => .misused
            | some name => runNamed program isTerminal tree name args machine

end CommandLine
end SourceReport

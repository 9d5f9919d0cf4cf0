import SourceReport.Emitter
import SourceReport.Machine
import SourceReport.Options

/-!
# Settings

The settings of a project: layout options, colors and the form of the output. They are read from a
table, in which every field has a default; all unacceptable fields are reported together.
-/

namespace SourceReport

inductive ColorMode where
  | auto | always | never
  deriving DecidableEq, Repr

namespace ColorMode

def all : List ColorMode := [.auto, .always, .never]

def name : ColorMode → String
  | .auto => "auto"
  | .always => "always"
  | .never => "never"

def ofName? (name : String) : Option ColorMode :=
  all.find? (·.name = name)

end ColorMode

structure Settings where
  path : Option String := none
  options : Options := {}
  glyphSet : GlyphSet := .boxDrawing
  color : ColorMode := .auto
  emitter : Option EmitterKind := none
  deriving DecidableEq, Repr

namespace Settings

/-!
# Reading a table
-/

inductive Issue where
  | displayStyle | glyphSet | count (which : Count) | color | emitter
  deriving DecidableEq, Repr

namespace Issue

def oneOf (names : List String) : String :=
  " must be one of [" ++ ", ".intercalate (names.map quoted) ++ "]"

def message : Issue → String
  | .displayStyle => "display_style" ++ oneOf (DisplayStyle.all.map (·.name))
  | .glyphSet => "chars" ++ oneOf (GlyphSet.all.map (·.name))
  | .count which => which.name ++ " must be a non-negative integer"
  | .color => "color" ++ oneOf (ColorMode.all.map (·.name))
  | .emitter => "emitter" ++ oneOf (EmitterKind.all.map (·.name))

end Issue

/-- What becomes of an unacceptable field. -/
inductive Refusal where
  | issue (issue : Issue)
  | fault (fault : Fault)
  deriving DecidableEq, Repr

namespace Refusal

def issue? : Refusal → Option Issue
  | .issue found => some found
  | .fault _ => none

def fault? : Refusal → Option Fault
  | .issue _ => none
  | .fault found => some found

/-- A value that is no name is quoted before it is told about. It is told about all the same if a
number in it is too long to be quoted, but not if the value is too deep. -/
def ofName (machine : Machine) (issue : Issue) (value : Value) : Refusal :=
  if value.quoteFault? machine.depth = some .tooDeep then .fault .tooDeep else .issue issue

end Refusal

section Fields

variable (machine : Machine) (fields : Fields)

/-- A field that has to be the name of something. The default stands in where it is absent. -/
def named {α : Type} (ofName? : String → Option α) (default : α) (issue : Issue)
    (name : String) : Except Refusal α :=
  match Value.field? fields name with
  | none => .ok default
  | some value =>
      match value.text?.bind ofName? with
      | some found => .ok found
      | none => .error (.ofName machine issue value)

def displayStyle : Except Refusal DisplayStyle :=
  named machine fields DisplayStyle.ofName? .rich .displayStyle "display_style"

def glyphSetOf : Except Refusal GlyphSet :=
  named machine fields GlyphSet.ofName? .boxDrawing .glyphSet "chars"

def count (which : Count) : Except Refusal Nat :=
  match Value.field? fields which.name with
  | none => .ok (which.get {})
  | some value =>
      match Count.read? value with
      | some n => .ok n
      | none => .error (.issue (.count which))

def colorOf : Except Refusal ColorMode :=
  named machine fields ColorMode.ofName? .auto .color "color"

def emitterOf : Except Refusal (Option EmitterKind) :=
  named machine fields (fun name => (EmitterKind.ofName? name).map some) none .emitter "emitter"

def refusalOf {α : Type} : Except Refusal α → List Refusal
  | .ok _ => []
  | .error refusal => [refusal]

/-- What becomes of all unacceptable fields, in the order in which they are looked at. -/
def refusals : List Refusal :=
  refusalOf (displayStyle machine fields) ++ refusalOf (glyphSetOf machine fields) ++
    Count.all.flatMap (fun one => refusalOf (count fields one)) ++
    refusalOf (colorOf machine fields) ++ refusalOf (emitterOf machine fields)

/-- The settings of a table without unacceptable fields. -/
def accepted (path : Option String) : Except Refusal Settings := do
  let displayStyle ← displayStyle machine fields
  let glyphSet ← glyphSetOf machine fields
  let tabWidth ← count fields .tabWidth
  let startContext ← count fields .startContext
  let endContext ← count fields .endContext
  let before ← count fields .before
  let after ← count fields .after
  let color ← colorOf machine fields
  let emitter ← emitterOf machine fields
  return {
    path, glyphSet, color, emitter
    options := {
      displayStyle, tabWidth, startContext, endContext, before, after
      glyphs := .ofSet glyphSet } }

end Fields

/-- Why there are no settings for a table: the issues of all unacceptable fields, unless a fault ends
the reading before they are all known. -/
inductive TableError where
  | issues (issues : List Issue)
  | fault (fault : Fault)

def ofTable (machine : Machine) (path : Option String) (fields : Fields) :
    Except TableError Settings :=
  match accepted machine fields path with
  | .ok settings => .ok settings
  | .error _ =>
      let refusals := refusals machine fields
      match refusals.findSome? Refusal.fault? with
      | some found => .error (.fault found)
      | none => .error (.issues (refusals.filterMap Refusal.issue?))

/-!
# Emitters
-/

/-- The emitter for an output: the one that is set, or else escapes where colors are wanted. -/
def emitterFor (settings : Settings) (isTerminal : Bool) : EmitterKind :=
  match settings.emitter with
  | some kind => kind
  | none =>
      match settings.color with
      | .always => .ansi
      | .auto => if isTerminal then .ansi else .plain
      | .never => .plain

/-!
# Showing settings
-/

def pathText (settings : Settings) : String :=
  settings.path.getD "(defaults)"

/-- Whether every count has few enough digits to be written. -/
def isWritable (settings : Settings) : Bool :=
  Count.all.all fun count => (Nat.toDigits 10 (count.get settings.options)).length ≤ Digits.limit

def lines (settings : Settings) : List String :=
  let options := settings.options
  [ "diagspan Configuration",
    String.ofList (List.replicate 40 '='),
    "",
    "Config file: " ++ settings.pathText,
    "",
    "Layout:",
    "  Display style: " ++ options.displayStyle.name,
    s!"  Tab width: {options.tabWidth}",
    "  Chars: " ++ settings.glyphSet.name,
    "",
    "Context Lines:",
    s!"  Start of multi-line label: {options.startContext}",
    s!"  End of multi-line label: {options.endContext}",
    s!"  Before label: {options.before}",
    s!"  After label: {options.after}",
    "",
    "Output:",
    "  Color: " ++ settings.color.name,
    "  Emitter: " ++ (settings.emitter.map (·.name)).getD "(from color)" ]

def text (settings : Settings) : String :=
  "\n".intercalate settings.lines

/-- The settings as a table of the form that they are read from, with their path. -/
def toTable (settings : Settings) : Fields :=
  let options := settings.options
  [ ("config_path", (settings.path.map Value.text).getD .null),
    ("display_style", .text options.displayStyle.name),
    ("tab_width", .int options.tabWidth),
    ("chars", .text settings.glyphSet.name),
    ("start_context_lines", .int options.startContext),
    ("end_context_lines", .int options.endContext),
    ("before_label_lines", .int options.before),
    ("after_label_lines", .int options.after),
    ("color", .text settings.color.name),
    ("emitter", (settings.emitter.map fun kind => Value.text kind.name).getD .null) ]

end Settings
end SourceReport

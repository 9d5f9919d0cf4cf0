import SourceReport.Glyphs
import SourceReport.Value

/-!
# Layout options

How much of a diagnostic is drawn, and with which glyphs, tab stops and context lines. The options
may be asked for with arbitrary values; the first one that is not acceptable is reported.
-/

namespace SourceReport

inductive DisplayStyle where
  | rich | medium | short
  deriving DecidableEq, Repr

namespace DisplayStyle

def all : List DisplayStyle := [.rich, .medium, .short]

def name : DisplayStyle → String
  | .rich => "rich"
  | .medium => "medium"
  | .short => "short"

def ofName? (name : String) : Option DisplayStyle :=
  all.find? (·.name = name)

end DisplayStyle

structure Options where
  displayStyle : DisplayStyle := .rich
  tabWidth : Nat := 4
  glyphs : Glyphs := .boxDrawing
  startContext : Nat := 3
  endContext : Nat := 1
  before : Nat := 0
  after : Nat := 0
  deriving DecidableEq, Repr

/-!
# The five counts
-/

inductive Count where
  | tabWidth | startContext | endContext | before | after
  deriving DecidableEq, Repr

namespace Count

def all : List Count := [.tabWidth, .startContext, .endContext, .before, .after]

def name : Count → String
  | .tabWidth => "tab_width"
  | .startContext => "start_context_lines"
  | .endContext => "end_context_lines"
  | .before => "before_label_lines"
  | .after => "after_label_lines"

/-- A count is a whole number that is not negative; a truth value is no number here. -/
def read? : Value → Option Nat
  | .scalar (.int n) => if 0 ≤ n then some n.toNat else none
  | _ => none

def get (options : Options) : Count → Nat
  | .tabWidth => options.tabWidth
  | .startContext => options.startContext
  | .endContext => options.endContext
  | .before => options.before
  | .after => options.after

def set (options : Options) (n : Nat) : Count → Options
  | .tabWidth => { options with tabWidth := n }
  | .startContext => { options with startContext := n }
  | .endContext => { options with endContext := n }
  | .before => { options with before := n }
  | .after => { options with after := n }

end Count

inductive OptionsError where
  | unknownDisplayStyle (value : Value)
  | unknownGlyphs (value : Value)
  | badCount (count : Count) (value : Value)

namespace OptionsError

def message : OptionsError → String
  | .unknownDisplayStyle value => "unknown display style: " ++ value.quotedText
  | .unknownGlyphs value => "unknown glyph set: " ++ value.quotedText
  | .badCount count value =>
      count.name ++ " must be a non-negative integer, got " ++ value.quotedText

end OptionsError

/-- Options as they were asked for; what was not asked for keeps its default. -/
structure OptionsRequest where
  displayStyle : Option Value := none
  glyphs : Option (Except Value Glyphs) := none
  counts : List (Count × Value) := []

namespace Options

/-- The request for options as they are. -/
def request (options : Options) : OptionsRequest where
  displayStyle := some (.text options.displayStyle.name)
  glyphs := some (.ok options.glyphs)
  counts := Count.all.map fun count => (count, .int (count.get options))

def withCounts (options : Options) : List (Count × Value) → Except OptionsError Options
  | [] => .ok options
  | (count, value) :: rest =>
      match Count.read? value with
      | some n => (count.set options n).withCounts rest
      | none => .error (.badCount count value)

/-- The display style is looked at first, then the glyphs, then the counts in their order. -/
def ofRequest (request : OptionsRequest) : Except OptionsError Options := do
  let options : Options := {}
  let options ←
    match request.displayStyle with
    | none => .ok options
    | some value =>
        match value.text?.bind DisplayStyle.ofName? with
        | some displayStyle => .ok { options with displayStyle }
        | none => .error (.unknownDisplayStyle value)
  let options ←
    match request.glyphs with
    | none => .ok options
    | some (.ok glyphs) => .ok { options with glyphs }
    | some (.error value) => .error (.unknownGlyphs value)
  options.withCounts (Count.all.flatMap fun count => request.counts.filter (·.1 = count))

end Options
end SourceReport

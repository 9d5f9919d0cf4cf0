import SourceReport.Number.IntegerText
import SourceReport.Settings
import SourceReport.Text.Split

/-!
# Command line arguments

A command line holds options of the program, the name of a command, and the command's own options
and arguments. The last of several options with one name counts.
-/

namespace SourceReport
namespace CommandLine

/-!
# Splitting a command line
-/

/-- An option by name, and whether a value belongs to it. -/
structure OptionSpec where
  name : String
  takesValue : Bool
  deriving DecidableEq, Repr

inductive Token where
  | flag (name : String)
  | valued (name value : String)
  | argument (text : String)
  deriving DecidableEq, Repr

/-- The name of an option, and the value that is joined to it. -/
def splitOption (text : String) : String × Option String :=
  match pieces '=' text.toList with
  | [] => (text, none)
  | [_] => (text, none)
  | name :: rest =>
      (String.ofList name, some (String.ofList (['='].intercalate rest)))

def looksLikeOption (text : String) : Bool :=
  text.toList.head? = some '-' && 1 < text.length

/-- Reads one option. A value may be joined to its option or follow it, whatever it looks like. -/
def readOption? (specs : List OptionSpec) (text : String) (rest : List String) :
    Option (Token × List String) :=
  let (name, joined) := splitOption text
  match specs.find? (·.name = name) with
  | none => none
  | some spec =>
      if spec.takesValue then
        match joined with
        | some value => some (.valued name value, rest)
        | none =>
            match rest with
            | value :: rest => some (.valued name value, rest)
            | [] => none
      else if joined.isSome then none
      else some (.flag name, rest)

/-- Reads options up to the first argument. What follows is left over. -/
def leadingOptions? (specs : List OptionSpec) (fuel : Nat) (args : List String) :
    Option (List Token × List String) :=
  match fuel, args with
  | 0, _ => none
  | _, [] => some ([], [])
  | fuel + 1, text :: rest =>
      if text = "--" then some ([], rest)
      else if looksLikeOption text then
        match readOption? specs text rest with
        | none => none
        | some (token, rest) =>
            (leadingOptions? specs fuel rest).map fun (tokens, left) => (token :: tokens, left)
      else some ([], text :: rest)

/-- Reads options and arguments in any order. -/
def tokens? (specs : List OptionSpec) (fuel : Nat) (args : List String) : Option (List Token) :=
  match fuel, args with
  | 0, _ => none
  | _, [] => some []
  | fuel + 1, text :: rest =>
      if text = "--" then some (rest.map .argument)
      else if looksLikeOption text then
        match readOption? specs text rest with
        | none => none
        | some (token, rest) => (tokens? specs fuel rest).map (token :: ·)
      else (tokens? specs fuel rest).map (.argument text :: ·)

def hasFlag (tokens : List Token) (name : String) : Bool :=
  tokens.contains (.flag name)

def valueOf? (tokens : List Token) (name : String) : Option String :=
  (tokens.filterMap fun
    | .valued other value => if other = name then some value else none
    | _ => none).getLast?

def arguments (tokens : List Token) : List String :=
  tokens.filterMap fun
    | .argument text => some text
    | _ => none

/-!
# The program's own options
-/

structure ProgramArguments where
  showVersion : Bool
  showHelp : Bool
  config : Option String
  verbose : Bool
  debug : Bool
  deriving DecidableEq, Repr

def programSpecs : List OptionSpec :=
  [⟨"--version", false⟩, ⟨"--config", true⟩, ⟨"--verbose", false⟩, ⟨"--debug", false⟩,
    ⟨"--help", false⟩]

/-- The program's options, and the rest of the command line. -/
def readProgram? (args : List String) : Option (ProgramArguments × List String) :=
  (leadingOptions? programSpecs (args.length + 1) args).map fun (tokens, rest) =>
    let first (name : String) : Nat := tokens.findIdx (· = .flag name)
    ({ showVersion := hasFlag tokens "--version" && first "--version" < first "--help"
       showHelp := hasFlag tokens "--help" && first "--help" < first "--version"
       config := valueOf? tokens "--config"
       verbose := hasFlag tokens "--verbose"
       debug := hasFlag tokens "--debug" }, rest)

/-!
# Commands
-/

inductive PreviewMode where
  | plain | ansi | svg | debug
  deriving DecidableEq, Repr

namespace PreviewMode

def ofName? : String → Option PreviewMode
  | "plain" => some .plain
  | "ansi" => some .ansi
  | "svg" => some .svg
  | "debug" => some .debug
  | _ => none

def emitterKind : PreviewMode → EmitterKind
  | .plain => .plain
  | .ansi => .ansi
  | .svg => .markup
  | .debug => .debug

end PreviewMode

structure RenderArguments where
  document : String
  /-- Arguments behind the document. They are too many, but the document is looked at before. -/
  surplus : List String
  displayStyle : Option DisplayStyle
  tabWidth : Option Nat
  ascii : Bool
  color : Option ColorMode
  deriving DecidableEq, Repr

inductive Command where
  | config (validate json : Bool)
  | preview (mode : PreviewMode)
  | render (arguments : RenderArguments)
  | help
  deriving DecidableEq, Repr

inductive CommandName where
  | config | preview | render
  deriving DecidableEq, Repr

namespace CommandName

def ofName? : String → Option CommandName
  | "config" => some .config
  | "preview" => some .preview
  | "render" => some .render
  | _ => none

def specs : CommandName → List OptionSpec
  | .config => [⟨"--validate", false⟩, ⟨"--json", false⟩, ⟨"--help", false⟩]
  | .preview => [⟨"--help", false⟩]
  | .render =>
      [⟨"--display-style", true⟩, ⟨"--tab-width", true⟩, ⟨"--ascii", false⟩, ⟨"--color", true⟩,
        ⟨"--help", false⟩]

end CommandName

/-- An option whose value has to be understood if it is given. -/
def understood? {α : Type} (read? : String → Option α) (value : Option String) :
    Option (Option α) :=
  match value with
  | none => some none
  | some text => (read? text).map some

def natural? (text : String) : Option Nat :=
  match IntegerText.read text.toList with
  | .ok n => if 0 ≤ n then some n.toNat else none
  | .error _ => none

def readRender? (tokens : List Token) : Option Command := do
  let displayStyle ← understood? DisplayStyle.ofName? (valueOf? tokens "--display-style")
  let tabWidth ← understood? natural? (valueOf? tokens "--tab-width")
  let color ← understood? ColorMode.ofName? (valueOf? tokens "--color")
  match arguments tokens with
  | document :: surplus =>
      some (.render {
        document, surplus, displayStyle, tabWidth, color, ascii := hasFlag tokens "--ascii" })
  | [] => none

def readPreview? (tokens : List Token) : Option Command :=
  match arguments tokens with
  | [] => some (.preview .plain)
  | [mode] => (PreviewMode.ofName? mode).map .preview
  | _ => none

def readConfig? (tokens : List Token) : Option Command :=
  match arguments tokens with
  | [] => some (.config (hasFlag tokens "--validate") (hasFlag tokens "--json"))
  | _ => none

/-- A command with its options and arguments, if they are in order. -/
def readCommand? (name : CommandName) (args : List String) : Option Command :=
  match tokens? name.specs (args.length + 1) args with
  | none => none
  | some tokens =>
      if hasFlag tokens "--help" then some .help
      else
        match name with
        | .config => readConfig? tokens
        | .preview => readPreview? tokens
        | .render => readRender? tokens

end CommandLine
end SourceReport

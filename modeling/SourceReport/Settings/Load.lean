import SourceReport.Fault
import SourceReport.FileTree
import SourceReport.Settings
import SourceReport.Text.Utf8
import SourceReport.Toml.Reader
import SourceReport.Trace

/-!
# Loading settings

Settings stand in the table `tool.diagspan` of a project file. The file is given, or it is the
nearest one in the working directory or above it; without any the defaults are used.
-/

namespace SourceReport
namespace Settings

def fileName : String := "pyproject.toml"

inductive LoadError where
  | malformed (path : String)
  | unreadable (path : Text) (error : AccessError)
  | invalid (path : Option String) (issues : List Issue)
  /-- The options are refused as a whole, though every field is acceptable. -/
  | refused (path : Option String) (reason : String)
  /-- A fault ended the reading of the fields. -/
  | fault (fault : Fault)
  deriving DecidableEq, Repr

namespace LoadError

def message : LoadError → String
  | .malformed _ => "Invalid TOML"
  | .unreadable path error => "Cannot read config file: " ++ error.text path
  | .invalid _ issues =>
      "Configuration errors:\n" ++ "\n".intercalate (issues.map fun issue => "  - " ++ issue.message)
  | .refused _ reason => reason
  | .fault found => found.message

def path? : LoadError → Option String
  | .malformed path => some path
  | .unreadable path _ => some path.shown
  | .invalid path _ => path
  | .refused path _ => path
  | .fault _ => none

end LoadError

inductive LoadFailure where
  | reported (error : LoadError)
  | fault (fault : Fault)
  deriving DecidableEq, Repr

/-- The options of acceptable fields are asked for as a whole once more. -/
def parse (path : Option String) (fields : Fields) (machine : Machine := {}) :
    Except LoadError Settings :=
  match ofTable machine path fields with
  | .error (.issues issues) => .error (.invalid path issues)
  | .error (.fault found) => .error (.fault found)
  | .ok settings =>
      match Options.ofRequest settings.options.request with
      | .ok options => .ok { settings with options }
      | .error error => .error (.refused path error.message)

/-- The value in the place of the settings' table; nothing stands for an empty table. -/
def section? (fields : Fields) : Except Fault Value :=
  match Value.field? fields "tool" with
  | none => .ok (.table [])
  | some (.table tools) => .ok ((Value.field? tools "diagspan").getD (.table []))
  | some _ => .error .unsupported

/-- What becomes of a value that is no table: names are looked for in it, which only texts and lists
allow, and then a field is asked for. -/
def faultOf : Value → Fault
  | .scalar (.text t) =>
      if occursIn "display_style".toList t.chars || occursIn "chars".toList t.chars then .wrongKind
      else .unsupported
  | .list items =>
      if items.any fun item => item.text? = some "display_style" || item.text? = some "chars" then
        .wrongKind
      else .unsupported
  | _ => .wrongKind

def LoadFailure.ofError : LoadError → LoadFailure
  | .malformed path => .reported (.malformed path)
  | .unreadable path error => .reported (.unreadable path error)
  | .invalid path issues => .reported (.invalid path issues)
  | .refused path reason => .reported (.refused path reason)
  | .fault found => .fault found

/-- Settings from a project file's text. The traces tell that a table was found. -/
def ofText (path : String) (text : List Char) (machine : Machine := {}) :
    List Trace × Except LoadFailure Settings :=
  match Toml.read text with
  | .error .malformed => ([], .error (.reported (.malformed path)))
  | .error (.fault fault) => ([], .error (.fault fault))
  | .ok fields =>
      match section? fields with
      | .error fault => ([], .error (.fault fault))
      | .ok value =>
          ([.settingsLoaded path],
            match value with
            | .table inner => (parse (some path) inner machine).mapError LoadFailure.ofError
            | other => .error (.fault (faultOf other)))

def ofBytes (path : String) (bytes : List UInt8) (machine : Machine := {}) :
    List Trace × Except LoadFailure Settings :=
  match Utf8.decode? bytes with
  | none => ([], .error (.fault .undecodable))
  | some text => ofText path text machine

def ofFile (tree : FileTree) (path : Path) (machine : Machine := {}) :
    List Trace × Except LoadFailure Settings :=
  match path.fault? with
  | some fault => ([], .error (.fault fault))
  | none =>
      match tree.read path with
      | .error error => ([], .error (.reported (.unreadable path.text error)))
      | .ok bytes => ofBytes path.text.shown bytes machine

def ofSearch (tree : FileTree) (machine : Machine := {}) :
    List Trace × Except LoadFailure Settings :=
  match tree.findUpward fileName (Path.ofText "") with
  | .error _ => ([], .error (.fault .inaccessible))
  | .ok none => ([.defaultsUsed], .ok {})
  | .ok (some place) =>
      match tree.nodeAt? place with
      | some (.file bytes) => ofBytes (tree.absoluteText place) bytes machine
      | _ => ([.defaultsUsed], .ok {})

def load (tree : FileTree) (path : Option Path) (machine : Machine := {}) :
    List Trace × Except LoadFailure Settings :=
  match path with
  | some path => ofFile tree path machine
  | none => ofSearch tree machine

end Settings
end SourceReport

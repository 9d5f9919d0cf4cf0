import SourceReport.Document.Entry
import SourceReport.Json.Reader
import SourceReport.Source.FileBase
import SourceReport.Trace

/-!
# Documents

A diagnostics document is a JSON text that lists source files and diagnostics about them. A file is
given by its source, or by a path as seen from the document. A text that is not too deep to be read
holds no value that is too deep to be quoted.
-/

namespace SourceReport

structure DocumentFile where
  name : Value
  source : String

structure Document where
  files : List DocumentFile
  entries : List Document.Entry

namespace Document

inductive Failure where
  | reported (error : DocumentError)
  | fault (fault : Fault)

/-- What was loaded, together with the traces of what was loaded until then. -/
abbrev Loading (α : Type) := List Trace × Except Failure α

def report {α : Type} (error : DocumentError) : Except Failure α :=
  .error (.reported error)

def fault {α : Type} (fault : Fault) : Except Failure α :=
  .error (.fault fault)

/-- Reads a file as text. -/
def readText (tree : FileTree) (path : Path) : Except Failure (List Char) :=
  match path.fault? with
  | some found => fault found
  | none =>
      match tree.read path with
      | .error error => report (.unreadable path.text error)
      | .ok bytes =>
          match Utf8.decode? bytes with
          | some text => .ok (unifyLineEnds text)
          | none => fault .undecodable

/-!
# Files
-/

/-- What becomes of a file that is no table: a name is looked for in it, and then a field asked
for. -/
def fileFault : Value → Fault
  | .scalar (.text t) => if occursIn "name".toList t.chars then .wrongKind else .unsupported
  | .list items =>
      if items.any fun item => item.text? = some "name" then .wrongKind else .unsupported
  | _ => .wrongKind

def readSource (tree : FileTree) (document : Path) (fields : Fields) (name : Value) :
    Except Failure String :=
  match Value.field? fields "source" with
  | some (.scalar (.text (.whole source))) => .ok source
  | some (.scalar (.text (.broken _))) => fault .unencodable
  | some _ => fault .unsupported
  | none =>
      match Value.field? fields "path" with
      | some (.scalar (.text path)) =>
          (readText tree (document.parent.join (Path.ofText path))).map String.ofList
      | some _ => fault .wrongKind
      | none => report (.fileWithoutSource name)

/-- A file and the name that labels know it by. -/
def readFile (tree : FileTree) (document : Path) (value : Value) :
    Except Failure (Scalar × DocumentFile) :=
  match value with
  | .table fields => do
      let name :=
        (Value.field? fields "name").getD ((Value.field? fields "path").getD (.text ""))
      let source ← readSource tree document fields name
      match name with
      | .scalar known => return (known, { name, source })
      | _ => fault .wrongKind
  | other => fault (fileFault other)

def fileTrace (file : DocumentFile) : Trace :=
  .fileLoaded file.name.shown (Utf8.encode file.source.toList).length

def readFiles (tree : FileTree) (document : Path) :
    List Value → Loading (List (Scalar × DocumentFile))
  | [] => ([], .ok [])
  | value :: rest =>
      match readFile tree document value with
      | .error failure => ([], .error failure)
      | .ok file =>
          let (traces, files) := readFiles tree document rest
          (fileTrace file.2 :: traces, files.map (file :: ·))

/-!
# Diagnostics
-/

def fileNames (files : List (Scalar × DocumentFile)) : FileNames :=
  files.zipIdx.map fun (file, id) => (file.1, id)

def readEntries (names : FileNames) (index : Nat) : List Value → Except Failure (List Entry)
  | [] => .ok []
  | value :: rest =>
      match readEntry names value with
      | .error (.problem problem) => report (.badDiagnostic index problem)
      | .error (.fault found) => fault found
      | .ok entry => do return entry :: (← readEntries names (index + 1) rest)

/-!
# The document
-/

def listed (fields : Fields) (name : String) : Except Failure (List Value) :=
  match Value.field? fields name with
  | none => .ok []
  | some value =>
      match elements? value with
      | some items => .ok items
      | none => fault .wrongKind

def ofFields (tree : FileTree) (path : Path) (fields : Fields) : Loading Document :=
  match listed fields "files" with
  | .error failure => ([], .error failure)
  | .ok values =>
      match readFiles tree path values with
      | (traces, .error failure) => (traces, .error failure)
      | (traces, .ok files) =>
          match (do readEntries (fileNames files) 0 (← listed fields "diagnostics")) with
          | .error failure => (traces, .error failure)
          | .ok entries =>
              (traces ++ [.documentLoaded entries.length path.text.shown],
                .ok { files := files.map (·.2), entries })

def ofValue (tree : FileTree) (path : Path) (value : Value) : Loading Document :=
  match value with
  | .table fields => ofFields tree path fields
  | _ => ([], report (.notATable path.text))

def load (tree : FileTree) (path : Path) : Loading Document :=
  match readText tree path with
  | .error failure => ([], .error failure)
  | .ok text =>
      match Json.read text with
      | .error .malformed => ([], report (.malformed path.text))
      | .error (.fault found) => ([], fault found)
      | .ok value => ofValue tree path value

/-- The paths that a document's files are read from. -/
def sourcePaths (path : Path) (text : List Char) : List Path :=
  match Json.read text with
  | .ok (.table fields) =>
      let files := ((Value.field? fields "files").bind elements?).getD []
      files.filterMap fun
        | .table file =>
            ((Value.field? file "path").bind Value.text?).map fun source =>
              path.parent.join (Path.ofText source)
        | _ => none
  | _ => []

/-- The source files of a document, with their names as they are shown. -/
def base (document : Document) : FileBase :=
  .ofSources (document.files.map fun file => (file.name.shown, file.source))

end Document
end SourceReport

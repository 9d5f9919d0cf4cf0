import SourceReport.Source.Lines
import SourceReport.Source.Slice
import SourceReport.Text

/-!
# The file base

Source files in the order in which they were added, addressed by their place in that order. A
record carries its encoding and its line starts, and they belong to the source that was encoded
last. A text that cannot be encoded takes the place of that source without new ones.
-/

namespace SourceReport

structure Location where
  lineNumber : Int
  columnNumber : Int
  deriving DecidableEq, Repr

structure Locus where
  name : String
  location : Location
  deriving DecidableEq, Repr

namespace Locus

def text (locus : Locus) : String :=
  locus.name ++ ":" ++ toString locus.location.lineNumber ++ ":" ++
    toString locus.location.columnNumber

end Locus

structure FileRecord where
  name : String
  /-- The source that was encoded last. -/
  source : String
  encoded : List UInt8
  lineStarts : List Nat
  encoded_eq : encoded = Utf8.encode source.toList
  lineStarts_eq : lineStarts = Lines.starts encoded
  /-- A broken text that was written to the record since. -/
  unencoded : Option (List TextUnit) := none
  deriving Repr

namespace FileRecord

def of (name source : String) : FileRecord :=
  let encoded := Utf8.encode source.toList
  { name, source, encoded
    lineStarts := Lines.starts encoded
    encoded_eq := rfl
    lineStarts_eq := rfl }

/-- The source as it was written last. -/
def text (record : FileRecord) : Text :=
  match record.unencoded with
  | some units => .broken units
  | none => .whole record.source

/-- Writes a source. It is written before it is encoded, so a text that has no encoding leaves those
of the source before it. -/
def withSource (record : FileRecord) : Text → FileRecord
  | .whole source => of record.name source
  | .broken units => { record with unencoded := some units }

/-- The first offset of a line. The line after the last one starts at the end of the source, and
a negative line counts back from the end of the list of lines. -/
def lineStart (record : FileRecord) (line : Int) : Except Failure Int :=
  let count : Int := record.lineStarts.length
  if line < count then
    let index := if line < 0 then line + count else line
    if index < 0 then .error (.lineBeforeFirst line)
    else .ok (record.lineStarts.getD index.toNat 0)
  else if line = count then .ok record.encoded.length
  else .error (.lineTooLarge line count)

def lineIndex (record : FileRecord) (offset : Int) : Nat :=
  Lines.lineIndex (record.lineStarts.map Int.ofNat) offset

def lineRange (record : FileRecord) (line : Int) : Except Failure (Int × Int) := do
  let start ← record.lineStart line
  let stop ← record.lineStart (line + 1)
  return (start, stop)

end FileRecord

structure FileBase where
  records : List FileRecord
  deriving Repr

namespace FileBase

def empty : FileBase := ⟨[]⟩

/-- Adds a file at the end. Its id is the number of files before it. -/
def add (base : FileBase) (name source : String) : FileBase :=
  ⟨base.records ++ [FileRecord.of name source]⟩

def ofSources (files : List (String × String)) : FileBase :=
  files.foldl (fun base file => base.add file.1 file.2) empty

/-- The place that an id addresses, if there is a file at it. -/
def place? (base : FileBase) (id : Scalar) : Option Nat :=
  match id with
  | .int _ | .bool _ =>
      id.whole?.bind fun n =>
        if 0 ≤ n ∧ n < base.records.length then some n.toNat else none
  | _ => none

def get (base : FileBase) (id : Scalar) : Except Failure FileRecord :=
  match (base.place? id).bind fun place => base.records[place]? with
  | some record => .ok record
  | none => .error (.fileMissing id)

/-- Replaces the source of a file. -/
def update (base : FileBase) (id : Scalar) (source : Text) : Except Failure FileBase :=
  match base.place? id with
  | some place =>
      .ok ⟨base.records.modify place fun record => record.withSource source⟩
  | none => .error (.fileMissing id)

end FileBase
end SourceReport

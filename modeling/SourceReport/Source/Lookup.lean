import SourceReport.Source.FileBase

/-!
# Lookups

What a report asks of its source files. Line numbers count up from the number of the first line;
columns and locations follow from the other lookups.
-/

namespace SourceReport

structure Lookup where
  name : Scalar → Except Failure String
  text : Scalar → Except Failure Text
  encoded : Scalar → Except Failure (List UInt8)
  lineIndex : Scalar → Int → Except Failure Nat
  lineRange : Scalar → Int → Except Failure (Int × Int)
  firstNumber : Int

namespace Lookup

def lineNumber (lookup : Lookup) (line : Int) : Int :=
  lookup.firstNumber + line

def columnNumber (lookup : Lookup) (id : Scalar) (line offset : Int) : Except Failure Int := do
  let range ← lookup.lineRange id line
  let bytes ← lookup.encoded id
  return Slice.columnIndex bytes range offset + 1

def location (lookup : Lookup) (id : Scalar) (offset : Int) : Except Failure Location := do
  let line ← lookup.lineIndex id offset
  let column ← lookup.columnNumber id line offset
  return { lineNumber := lookup.lineNumber line, columnNumber := column }

def locus (lookup : Lookup) (id : Scalar) (offset : Int) : Except Failure Locus := do
  let name ← lookup.name id
  let location ← lookup.location id offset
  return { name, location }

/-- A source as it is shown. -/
def source (lookup : Lookup) (id : Scalar) : Except Failure String :=
  (lookup.text id).map Text.shown

/-- The same lookups with every encoding computed from the source. -/
def withoutEncodings (lookup : Lookup) : Lookup :=
  { lookup with
    encoded := fun id => do
      match ← lookup.text id with
      | .whole source => return Utf8.encode source.toList
      | .broken _ => .error .undecodable }

end Lookup

namespace FileBase

def lookup (base : FileBase) : Lookup where
  name id := (base.get id).map FileRecord.name
  text id := (base.get id).map FileRecord.text
  encoded id := (base.get id).map FileRecord.encoded
  lineIndex id offset := (base.get id).map fun record => record.lineIndex offset
  lineRange id line := do (← base.get id).lineRange line
  firstNumber := 1

end FileBase
end SourceReport

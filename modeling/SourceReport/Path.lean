import SourceReport.Fault
import SourceReport.Text
import SourceReport.Text.Split

/-!
# Paths

A path is a list of names, which lead on from a root or from some directory. A root is written as
one slash; two slashes are a root of their own, and three or more count as one.
-/

namespace SourceReport

/-!
# Names of files

A file system knows names by their bytes. In a broken text a surrogate from DC80 to DCFF stands for
the byte in its low half; for the other surrogates there are no bytes.
-/

namespace Text

def fileBytes? (text : Text) : Option (List UInt8) :=
  (text.units.mapM unitBytes?).map List.flatten
where
  unitBytes? : TextUnit → Option (List UInt8)
    | .char c => some (Utf8.encode [c])
    | .surrogate code =>
        if 0xDC80 ≤ code ∧ code ≤ 0xDCFF then some [UInt8.ofNat (code - 0xDC00)] else none

def fileLength (text : Text) : Nat :=
  (text.fileBytes?.getD []).length

/-- A name as it stands on a disk: bytes that make up characters are those characters. -/
def asFileName : Text → Text
  | .whole s => .whole s
  | .broken units =>
      match (fileBytes? (.broken units)).bind Utf8.decode? with
      | some chars => .whole (String.ofList chars)
      | none => .broken units

end Text

structure Path where
  /-- Nothing, one slash or two. -/
  root : String
  parts : List Text
  deriving DecidableEq, Repr

namespace Path

def slash : TextUnit := .char '/'

def rootOf (text : Text) : String :=
  match (text.units.takeWhile (· = slash)).length with
  | 0 => ""
  | 2 => "//"
  | _ => "/"

/-- Empty parts and single points stand for nothing. -/
def ofText (text : Text) : Path where
  root := rootOf text
  parts :=
    ((pieces slash text.units).filter fun part => part ≠ [] && part ≠ [.char '.']).map Text.ofUnits

def isAbsolute (path : Path) : Bool :=
  !path.root.isEmpty

def text (path : Path) : Text :=
  if !path.isAbsolute && path.parts.isEmpty then "."
  else .ofUnits (path.root.toList.map .char ++ [slash].intercalate (path.parts.map Text.units))

def parent (path : Path) : Path :=
  { path with parts := path.parts.dropLast }

/-- A path as seen from another one; an absolute path is seen alike from everywhere. -/
def join (base path : Path) : Path :=
  if path.isAbsolute then path else { base with parts := base.parts ++ path.parts }

/-- Why nothing can be looked for at a path. -/
def fault? (path : Path) : Option Fault :=
  match path.text.fileBytes? with
  | none => some .unencodable
  | some bytes => if 0 ∈ bytes then some .nullInPath else none

end Path
end SourceReport

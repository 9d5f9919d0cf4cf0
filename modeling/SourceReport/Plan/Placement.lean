import SourceReport.Diagnostic
import SourceReport.Options
import SourceReport.Plan.Mark
import SourceReport.Source.Lookup

/-!
# Placing a label

A placement is a label together with the lines that it touches: the lines it covers and, on either
side, the context lines that the options ask for and the file has.
-/

namespace SourceReport

/-- A line of a file: its index and its byte range. -/
structure LineSpan where
  index : Nat
  range : Int × Int
  deriving DecidableEq, Repr

structure Placement where
  label : Label
  fileName : String
  location : Location
  first : LineSpan
  last : LineSpan
  middle : List LineSpan
  before : List LineSpan
  after : List LineSpan
  deriving DecidableEq, Repr

namespace Placement

/-!
# Context lines

The search for context lines goes outward from the label and ends at the first line that the file
does not have.
-/

def contextBefore (lookup : Lookup) (file : Scalar) : Nat → Nat → List LineSpan
  | 0, _ => []
  | _, 0 => []
  | count + 1, line + 1 =>
      match lookup.lineRange file line with
      | .ok range => ⟨line, range⟩ :: contextBefore lookup file count line
      | .error _ => []

def contextAfter (lookup : Lookup) (file : Scalar) : Nat → Nat → List LineSpan
  | 0, _ => []
  | count + 1, line =>
      match lookup.lineRange file (line + 1 : Nat) with
      | .ok range => ⟨line + 1, range⟩ :: contextAfter lookup file count (line + 1)
      | .error _ => []

/-- The lines strictly between two others. -/
def linesBetween (lookup : Lookup) (file : Scalar) (first last : Nat) :
    Except Failure (List LineSpan) :=
  (List.range' (first + 1) (last - (first + 1))).mapM fun (line : Nat) =>
    (lookup.lineRange file line).map fun range => ⟨line, range⟩

/-- Places a label, or says why it has no place in its file. The bytes are those of the file's
first mention, so that a second name for the same file is checked against the same source. -/
def ofLabel (lookup : Lookup) (options : Options) (mention : Scalar) (label : Label) :
    Except Failure Placement := do
  let bytes ← lookup.encoded mention
  Slice.checkRange bytes label.start label.stop
  let first ← lookup.lineIndex label.file label.start
  let firstRange ← lookup.lineRange label.file first
  let last ← lookup.lineIndex label.file label.stop
  let lastRange ← lookup.lineRange label.file last
  let fileName ← lookup.name label.file
  let location ← lookup.location label.file label.start
  let middle ← linesBetween lookup label.file first last
  return {
    label, fileName, location, middle
    first := ⟨first, firstRange⟩
    last := ⟨last, lastRange⟩
    before := contextBefore lookup label.file options.before first
    after := contextAfter lookup label.file options.after last }

/-!
# What a placement asks of a line
-/

def isSingle (placement : Placement) : Bool :=
  placement.first.index = placement.last.index

/-- All lines that the placement touches. -/
def lines (placement : Placement) : List LineSpan :=
  placement.before ++ placement.first :: placement.middle ++ placement.last :: placement.after

/-- Whether the placement wants a line to be shown: its first and last line, its context lines, and
the lines close enough to either end of its bracket. -/
def shows (options : Options) (placement : Placement) (line : Nat) : Bool :=
  line = placement.first.index || line = placement.last.index ||
    (placement.first.index < line && line < placement.last.index &&
      (line - placement.first.index ≤ options.startContext ||
        placement.last.index - line ≤ options.endContext)) ||
    placement.before.any (·.index = line) || placement.after.any (·.index = line)

/-- The mark under the line of a label that lies on one line: at least one byte wide. -/
def singleMark (placement : Placement) : SingleMark :=
  let start : Int := placement.label.start - placement.first.range.1
  { style := placement.label.style
    start := start
    stop := max (placement.label.stop - placement.first.range.1) (start + 1)
    message := placement.label.message }

/-- The part of the bracket that a line holds, if the bracket crosses it. -/
def part? (placement : Placement) (line : Nat) : Option BracketPart :=
  if line = placement.first.index then
    some (.top (placement.label.start - placement.first.range.1))
  else if line = placement.last.index then
    some (.bottom (placement.label.stop - placement.last.range.1) placement.label.message)
  else if placement.first.index < line ∧ line < placement.last.index then some .left
  else none

/-- The better of two placements to anchor a file at: the first one, unless the second is primary
where the first is not, or starts earlier in the same style. -/
def better (held next : Placement) : Placement :=
  if (held.label.style = .secondary ∧ next.label.style = .primary) ∨
      (held.label.style = next.label.style ∧ next.label.start < held.label.start) then next
  else held

end Placement
end SourceReport

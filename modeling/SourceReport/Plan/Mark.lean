import SourceReport.Display.Line
import SourceReport.Severity

/-!
# Marks on a line

A label that lies on one line is drawn under it. A label over several lines is drawn as a bracket
with a gutter column of its own; each line that it crosses holds a part of the bracket. Offsets
count from the start of the line.
-/

namespace SourceReport

structure SingleMark where
  style : LabelStyle
  start : Int
  stop : Int
  message : String
  deriving DecidableEq, Repr

namespace SingleMark

def range (mark : SingleMark) : Int × Int :=
  (mark.start, mark.stop)

/-- Whether a mark with the given range goes in front of this one: marks ascend by range, and of
two with the same range the newer one comes first. -/
def follows (mark : SingleMark) (start stop : Int) : Bool :=
  start < mark.start || (mark.start = start && stop ≤ mark.stop)

/-- The place where a mark with the given range is inserted. -/
def insertionIndex (marks : List SingleMark) (start stop : Int) : Nat :=
  marks.findIdx fun mark => mark.follows start stop

def insert (marks : List SingleMark) (mark : SingleMark) : List SingleMark :=
  marks.insertIdx (insertionIndex marks mark.start mark.stop) mark

/-- Inserts marks one after another, in the order given. -/
def insertAll (marks : List SingleMark) : List SingleMark :=
  marks.foldl insert []

end SingleMark

inductive BracketPart where
  /-- The first line, marked from `start` on. -/
  | top (start : Int)
  | left
  /-- The last line, marked up to `stop`. -/
  | bottom (stop : Int) (message : String)
  deriving DecidableEq, Repr

structure BracketEntry where
  column : Nat
  style : LabelStyle
  part : BracketPart
  deriving DecidableEq, Repr

namespace BracketEntry

/-- The entry that a gutter column shows: of several in one column, the last one. -/
def atColumn? (entries : List BracketEntry) (column : Nat) : Option BracketEntry :=
  entries.reverse.find? (·.column = column)

end BracketEntry
end SourceReport

import SourceReport.Plan.Placement

/-!
# Plans

A plan gathers the labels of a diagnostic by file and by line. Files stand in the order in which
labels first name them, lines ascend, and each label over several lines has a gutter column of its
own, numbered from zero in the order of the labels.
-/

namespace SourceReport

structure PlannedLine where
  index : Nat
  number : Int
  range : Int × Int
  mustRender : Bool
  single : List SingleMark
  brackets : List BracketEntry
  deriving DecidableEq, Repr

structure PlannedFile where
  id : Scalar
  start : Nat
  name : String
  locus : Locus
  style : LabelStyle
  numBrackets : Nat
  lines : List PlannedLine
  deriving DecidableEq, Repr

namespace PlannedFile

def renderedLines (file : PlannedFile) : List PlannedLine :=
  file.lines.filter (·.mustRender)

def line? (file : PlannedFile) (index : Nat) : Option PlannedLine :=
  file.lines.find? (·.index = index)

end PlannedFile

structure Plan where
  files : List PlannedFile
  padding : Nat
  deriving DecidableEq, Repr

namespace Plan

/-- The characters that a number is written with, its sign included. -/
def countDigits (n : Int) : Nat :=
  (toString n).length

/-!
# Placing all labels
-/

/-- The name under which a file was first mentioned, or the given one if it was not yet. -/
def mention (seen : List Placement) (file : Scalar) : Scalar :=
  match seen.find? (·.label.file.same file) with
  | some placement => placement.label.file
  | none => file

/-- Places labels in their order, after those already placed. -/
def placeFrom (lookup : Lookup) (options : Options) (seen : List Placement) :
    List Label → Except Failure (List Placement)
  | [] => .ok seen
  | label :: rest => do
      let placement ← Placement.ofLabel lookup options (mention seen label.file) label
      placeFrom lookup options (seen ++ [placement]) rest

def placements (lookup : Lookup) (options : Options) (labels : List Label) :
    Except Failure (List Placement) :=
  placeFrom lookup options [] labels

/-!
# Lines
-/

/-- Adds a line to an ascending list, unless its index is already there. -/
def insertLine (line : LineSpan) : List LineSpan → List LineSpan
  | [] => [line]
  | head :: rest =>
      if line.index < head.index then line :: head :: rest
      else if line.index = head.index then head :: rest
      else head :: insertLine line rest

def touchedLines (placements : List Placement) : List LineSpan :=
  (placements.flatMap Placement.lines).foldl (fun lines line => insertLine line lines) []

/-- The single-line marks of a line. -/
def singleMarks (placements : List Placement) (line : Nat) : List SingleMark :=
  SingleMark.insertAll
    ((placements.filter fun placement => placement.isSingle && placement.first.index = line).map
      Placement.singleMark)

/-- The placements that are drawn as brackets; their places in this list are their columns. -/
def bracketed (placements : List Placement) : List Placement :=
  placements.filter fun placement => !placement.isSingle

def bracketEntries (placements : List Placement) (line : Nat) : List BracketEntry :=
  (bracketed placements).zipIdx.filterMap fun (placement, column) =>
    (placement.part? line).map fun part => { column, style := placement.label.style, part }

def plannedLine (lookup : Lookup) (options : Options) (placements : List Placement)
    (line : LineSpan) : PlannedLine where
  index := line.index
  number := lookup.lineNumber line.index
  range := line.range
  mustRender := placements.any fun placement => placement.shows options line.index
  single := singleMarks placements line.index
  brackets := bracketEntries placements line.index

/-!
# Files
-/

/-- The first placement in each file, in order. -/
def firstMentions (placements : List Placement) : List Placement :=
  placements.foldl
    (fun heads placement =>
      if heads.any (·.label.file.same placement.label.file) then heads else heads ++ [placement])
    []

/-- Plans one file from the placements in it and the first of them. The snippet is anchored at the
best one. -/
def plannedFile (lookup : Lookup) (options : Options) (head : Placement)
    (placements : List Placement) : PlannedFile :=
  let anchor := placements.foldl Placement.better head
  { id := head.label.file
    start := anchor.label.start
    name := head.fileName
    locus := { name := head.fileName, location := anchor.location }
    style := anchor.label.style
    numBrackets := (bracketed placements).length
    lines := (touchedLines placements).map (plannedLine lookup options placements) }

def plannedFiles (lookup : Lookup) (options : Options) (placements : List Placement) :
    List PlannedFile :=
  (firstMentions placements).map fun head =>
    plannedFile lookup options head
      (placements.filter fun placement => head.label.file.same placement.label.file)

/-- The width of the widest line number that a label covers. -/
def gutterWidth (lookup : Lookup) (placements : List Placement) : Nat :=
  (placements.flatMap fun placement =>
      (placement.first :: placement.last :: placement.middle).map fun line =>
        countDigits (lookup.lineNumber line.index)).foldl max 0

def ofDiagnostic (lookup : Lookup) (options : Options) (diagnostic : Diagnostic) :
    Except Failure Plan := do
  let placements ← placements lookup options diagnostic.labels
  return {
    files := plannedFiles lookup options placements
    padding := gutterWidth lookup placements }

end Plan
end SourceReport

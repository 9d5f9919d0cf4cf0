import SourceReport.Value

/-!
# Failures

Why a file could not be looked up, a position could not be found or a report could not be written.
A lookup tells the cause alone. What is raised for it carries its message, and where a number in the
message is too long to be written, a fault is raised in its place.
-/

namespace SourceReport

inductive Failure where
  | fileMissing (id : Scalar)
  | indexTooLarge (given max : Int)
  | lineTooLarge (given max : Int)
  | columnTooLarge (given max : Int)
  | invalidCharBoundary (given : Int)
  | format (message : String)
  /-- A line counted from the end of the file lies before its first line. -/
  | lineBeforeFirst (given : Int)
  /-- Bytes that are no UTF-8, or a text with a character that UTF-8 has no bytes for. -/
  | undecodable
  deriving DecidableEq, Repr

namespace Failure

def message : Failure → String
  | .fileMissing id => "file missing: " ++ id.quotedText
  | .indexTooLarge given max => s!"invalid index {given}, maximum index is {max}"
  | .lineTooLarge given max => s!"invalid line {given}, maximum line is {max}"
  | .columnTooLarge given max => s!"invalid column {given}, maximum column {max}"
  | .invalidCharBoundary given => s!"index is not a code point boundary: {given}"
  | .format text => text
  | .lineBeforeFirst given => s!"no line {given}"
  | .undecodable => "text is not UTF-8"

/-- The whole numbers that stand in a message. -/
def numbers : Failure → List Int
  | .fileMissing (.int id) => [id]
  | .fileMissing _ => []
  | .indexTooLarge given max => [given, max]
  | .lineTooLarge given max => [given, max]
  | .columnTooLarge given max => [given, max]
  | .invalidCharBoundary given => [given]
  | .format _ => []
  | .lineBeforeFirst _ => []
  | .undecodable => []

def isWritable (failure : Failure) : Bool :=
  failure.numbers.all Digits.isWritable

def defaultFormat : Failure := .format "error writing output"

/-- A sink that refused a write, for the reason it gives. -/
def refused (reason : String) : Failure := .format ("error writing output: " ++ reason)

end Failure

/-- How a call ends that does not return. -/
inductive Raised where
  | failure (failure : Failure)
  | fault (fault : Fault)
  deriving DecidableEq, Repr

namespace Raised

def failure? : Raised → Option Failure
  | .failure cause => some cause
  | .fault _ => none

def fault? : Raised → Option Fault
  | .failure _ => none
  | .fault cause => some cause

end Raised

/-- What is raised for a failure. -/
def Failure.raised (failure : Failure) : Raised :=
  if failure.isWritable then .failure failure else .fault .longNumber

/-- The end of a call that returns what a lookup yields. -/
def raising {α : Type} (result : Except Failure α) : Except Raised α :=
  result.mapError Failure.raised

end SourceReport

import SourceReport.Severity
import SourceReport.Value

/-!
# Diagnostics

A label marks a half-open range of bytes in one file; an empty range marks a point. Its message is
printed beside the mark and is a single line. A diagnostic carries labels, which are drawn in the
order of the source, and notes, which may run over several lines.
-/

namespace SourceReport

def isLineBreak (c : Char) : Bool :=
  c = '\n' || c = '\r'

structure Label where
  style : LabelStyle
  file : Scalar
  start : Nat
  stop : Nat
  message : String
  start_le_stop : start ≤ stop
  message_line : message.toList.any isLineBreak = false
  deriving DecidableEq, Repr

inductive LabelError where
  | negativeStart (start : Int)
  | startAfterStop (start stop : Int)
  | lineBreak
  deriving DecidableEq, Repr

namespace LabelError

def message : LabelError → String
  | .negativeStart start => s!"label start must not be negative, got {start}"
  | .startAfterStop start stop => s!"label start ({start}) must not exceed its end ({stop})"
  | .lineBreak => "label messages must not contain line breaks"

end LabelError

namespace Label

/-- The start is checked first, then the order of the ends, then the message. -/
def make (style : LabelStyle) (file : Scalar) (start stop : Int) (message : String) :
    Except LabelError Label :=
  if start < 0 then .error (.negativeStart start)
  else if horder : stop < start then .error (.startAfterStop start stop)
  else if hline : message.toList.any isLineBreak = true then .error .lineBreak
  else
    .ok
      { style, file, message
        start := start.toNat
        stop := stop.toNat
        start_le_stop := by omega
        message_line := by simpa using hline }

def withMessage (label : Label) (message : String) : Except LabelError Label :=
  make label.style label.file label.start label.stop message

end Label

structure Diagnostic where
  severity : Severity
  code : Option String := none
  message : String := ""
  labels : List Label := []
  notes : List String := []
  deriving DecidableEq, Repr

namespace Diagnostic

def primaryLabels (diagnostic : Diagnostic) : List Label :=
  diagnostic.labels.filter (·.style = .primary)

def withCode (diagnostic : Diagnostic) (code : Option String) : Diagnostic :=
  { diagnostic with code }

def withMessage (diagnostic : Diagnostic) (message : String) : Diagnostic :=
  { diagnostic with message }

/-- Adds labels after those already there. -/
def withLabels (diagnostic : Diagnostic) (labels : List Label) : Diagnostic :=
  { diagnostic with labels := diagnostic.labels ++ labels }

/-- Adds notes after those already there. -/
def withNotes (diagnostic : Diagnostic) (notes : List String) : Diagnostic :=
  { diagnostic with notes := diagnostic.notes ++ notes }

end Diagnostic
end SourceReport

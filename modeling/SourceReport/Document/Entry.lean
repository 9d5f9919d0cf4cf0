import SourceReport.Document.Problem
import SourceReport.Fault
import SourceReport.Number.IntegerText

/-!
# Diagnostics of a document

A document gives a diagnostic as a table. The values of its texts are kept as they are given; a text
that is given as something else is shown in its printed form.
-/

namespace SourceReport
namespace Document

structure LabelEntry where
  label : Label
  message : Value

structure Entry where
  severity : Severity
  code : Value
  message : Value
  labels : List LabelEntry
  notes : List Value

namespace Entry

/-- The diagnostic that an entry stands for. -/
def diagnostic (entry : Entry) : Diagnostic where
  severity := entry.severity
  code := if entry.code.isBlank then none else some entry.code.shown
  message := entry.message.shown
  labels := entry.labels.map (·.label)
  notes := entry.notes.map (·.shown)

end Entry

/-!
# Reading an entry
-/

inductive Refusal where
  | problem (problem : Problem)
  | fault (fault : Fault)

abbrev Reading := Except Refusal

def refuse {α : Type} (problem : Problem) : Reading α :=
  .error (.problem problem)

/-- What a value holds when it is gone through: items, the names of fields, or characters. -/
def elements? : Value → Option (List Value)
  | .list items => some items
  | .table fields => some (fields.map fun field => .scalar (.text field.1))
  | .scalar (.text t) => some (t.units.map fun unit => .scalar (.text (.ofUnits [unit])))
  | .scalar _ => none

def elements (value : Value) : Reading (List Value) :=
  match elements? value with
  | some items => .ok items
  | none => refuse (.notASequence value.kindName)

def elementsOr (fields : Fields) (name : String) : Reading (List Value) :=
  match Value.field? fields name with
  | some value => elements value
  | none => .ok []

def required (fields : Fields) (name : String) : Reading Value :=
  match Value.field? fields name with
  | some value => .ok value
  | none => refuse (.missingField name)

/-- Whole numbers may be given as texts, truth values and fractions; a fraction is cut off. -/
def wholeNumber : Value → Reading Int
  | .scalar (.bool b) => .ok (if b then 1 else 0)
  | .scalar (.int n) => .ok n
  | .scalar (.real x) =>
      match x.truncated? with
      | some n => .ok n
      | none => if x = .notANumber then refuse .notANumber else .error (.fault .unbounded)
  | .scalar (.text t) =>
      match IntegerText.read t.chars with
      | .ok n => .ok n
      | .error .malformed => refuse (.badInteger t)
      | .error (.tooLong digits) => refuse (.longInteger digits)
  | value => refuse (.notNumeric value.kindName)

def identifier : Value → Reading Scalar
  | .scalar s => .ok s
  | value => refuse (.notAnIdentifier value.kindName)

def name {α : Type} (ofName? : String → Option α) (kind : String) (value : Value) : Reading α :=
  match value.text?.bind ofName? with
  | some found => .ok found
  | none => refuse (.notAName value kind)

/-- The files of a document by name. Of several with one name the last counts. -/
abbrev FileNames := List (Scalar × Nat)

/-- Whether a label's file is the one of a name. What is no number names the same file wherever it
stands, although it is not the same as itself. -/
def isNamed (name file : Scalar) : Bool :=
  name = file || name.same file

def fileId (names : FileNames) (value : Value) : Reading Nat := do
  let file ← identifier value
  match names.reverse.find? fun known => isNamed known.1 file with
  | some (_, id) => return id
  | none => refuse (.unknownFile file)

/-- Whether a value that can hold texts holds a line break. -/
def holdsLineBreak (value : Value) : Reading Bool :=
  let isBreak (item : Value) : Bool := item.text? = some "\n" || item.text? = some "\r"
  match value with
  | .scalar (.text t) => .ok (t.chars.any isLineBreak)
  | .list items => .ok (items.any isBreak)
  | .table fields => .ok (fields.any fun field => isBreak (.scalar (.text field.1)))
  | .scalar s => refuse (.notAContainer s.kindName)

def labelText (message : Value) : String :=
  if message.isBlank then "" else message.shown

def labelOf (style : LabelStyle) (id : Nat) (start stop : Int) (message : Value) :
    Reading LabelEntry := do
  let make (text : String) : Reading Label :=
    (Label.make style (.int id) start stop text).mapError fun error => .problem (.badLabel error)
  let _ ← make ""
  if ← holdsLineBreak message then refuse (.badLabel .lineBreak)
  else return { label := ← make (labelText message), message }

def readLabel (names : FileNames) (value : Value) : Reading LabelEntry :=
  match value with
  | .table fields => do
      let id ← fileId names (← required fields "file")
      let style ←
        name LabelStyle.ofName? "LabelStyle"
          ((Value.field? fields "style").getD (.text "primary"))
      let start ← wholeNumber (← required fields "start")
      let stop ← wholeNumber (← required fields "end")
      labelOf style id start stop ((Value.field? fields "message").getD (.text ""))
  | other => refuse (.noFields other.kindName)

/-- The labels are read first, then the severity, then the notes. -/
def readEntry (names : FileNames) (value : Value) : Reading Entry :=
  match value with
  | .table fields => do
      let labels ← (← elementsOr fields "labels").mapM (readLabel names)
      let severity ←
        name Severity.ofName? "Severity" ((Value.field? fields "severity").getD (.text "error"))
      let notes ← elementsOr fields "notes"
      return {
        severity, labels, notes
        code := (Value.field? fields "code").getD .null
        message := (Value.field? fields "message").getD (.text "") }
  | _ => .error (.fault .unsupported)

end Document
end SourceReport

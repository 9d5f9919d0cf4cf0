import SourceReport.Diagnostic
import SourceReport.FileTree

/-!
# Problems of documents

What can be wrong with a diagnostics document, and how it is reported.
-/

namespace SourceReport
namespace Document

/-- What is wrong with one diagnostic of a document. -/
inductive Problem where
  | missingField (name : String)
  | unknownFile (name : Scalar)
  | notAName (value : Value) (kind : String)
  | badLabel (error : LabelError)
  | badInteger (text : Text)
  | longInteger (digits : Nat)
  | notNumeric (kind : String)
  | notANumber
  | notASequence (kind : String)
  | notAContainer (kind : String)
  | notAnIdentifier (kind : String)
  | noFields (kind : String)
  deriving Repr

namespace Problem

def message : Problem → String
  | .missingField name => quoted name
  | .unknownFile name => "unknown file " ++ name.quotedText
  | .notAName value kind => value.quotedText ++ " is not a valid " ++ kind
  | .badLabel error => error.message
  | .badInteger text =>
      "invalid literal for int() with base 10: " ++ String.ofList (text.quoted.toList.take 200)
  | .longInteger digits => (Fault.longNumeral digits).message
  | .notNumeric kind =>
      "int() argument must be a string, a bytes-like object or a real number, not " ++
        quoted kind
  | .notANumber => "cannot convert float NaN to integer"
  | .notASequence kind => quoted kind ++ " object is not iterable"
  | .notAContainer kind => "argument of type " ++ quoted kind ++ " is not iterable"
  | .notAnIdentifier kind => "unhashable type: " ++ quoted kind
  | .noFields kind =>
      if kind = "str" then "string indices must be integers, not 'str'"
      else if kind = "list" then "list indices must be integers or slices, not str"
      else quoted kind ++ " object is not subscriptable"

end Problem

inductive DocumentError where
  | malformed (path : Text)
  | unreadable (path : Text) (error : AccessError)
  | notATable (path : Text)
  | fileWithoutSource (name : Value)
  | badDiagnostic (index : Nat) (problem : Problem)

namespace DocumentError

def message : DocumentError → String
  | .malformed path => "Invalid JSON in " ++ path.shown
  | .unreadable path error => "Cannot read " ++ path.shown ++ ": " ++ error.text path
  | .notATable path => path.shown ++ ": expected a JSON object"
  | .fileWithoutSource name => "file " ++ name.quotedText ++ " needs a 'source' or a 'path'"
  | .badDiagnostic index problem => s!"diagnostic #{index}: " ++ problem.message

end DocumentError
end Document
end SourceReport

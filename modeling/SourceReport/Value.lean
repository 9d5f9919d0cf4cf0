import SourceReport.Fault
import SourceReport.Number.Numeral
import SourceReport.Text

/-!
# Values of documents and settings

A scalar identifies a file or stands alone in a table; a value is a scalar, a list or a table. The
fields of a table keep the order in which their names first occurred.
-/

namespace SourceReport

inductive Scalar where
  | null
  | bool (b : Bool)
  | int (n : Int)
  | real (x : Binary64)
  | text (t : Text)
  /-- A date or a time of day, in its spelling. -/
  | moment (spelling : String)
  deriving DecidableEq, Repr, Inhabited

inductive Value where
  | scalar (s : Scalar)
  | list (items : List Value)
  | table (fields : List (Text × Value))
  deriving Repr, Inhabited

abbrev Fields := List (Text × Value)

namespace Scalar

def ofNumeral : Numeral → Except Fault Scalar
  | .whole n => .ok (.int n)
  | .real x => .ok (.real x)
  | .tooLong digits => .error (.longNumeral digits)

/-- The number that a scalar counts as: a truth value counts as one or zero. -/
def whole? : Scalar → Option Int
  | .bool b => some (if b then 1 else 0)
  | .int n => some n
  | _ => none

/-- Whether two scalars name the same thing: numbers are compared by value, whatever their kind. -/
def same (a b : Scalar) : Bool :=
  match a, b with
  | .null, .null => true
  | .text s, .text t => s = t
  | .moment s, .moment t => s = t
  | .real x, .real y => x.sameValue y
  | .real x, other => other.whole?.any x.isInt
  | other, .real x => other.whole?.any x.isInt
  | a, b => a.whole?.isSome && a.whole? = b.whole?

def quotedText : Scalar → String
  | .null => "None"
  | .bool true => "True"
  | .bool false => "False"
  | .int n => toString n
  | .real x => x.toText
  | .text t => t.quoted
  | .moment spelling => spelling

/-- A text stands for itself, everything else is spelled as in quoted form. -/
def shown : Scalar → String
  | .text t => t.shown
  | other => other.quotedText

def kindName : Scalar → String
  | .null => "NoneType"
  | .bool _ => "bool"
  | .int _ => "int"
  | .real _ => "float"
  | .text _ => "str"
  | .moment _ => "moment"

def isZero : Scalar → Bool
  | .null => true
  | .bool b => !b
  | .int n => n = 0
  | .real x => x.isInt 0
  | .text t => t.isEmpty
  | .moment _ => false

end Scalar

namespace Value

/-!
# Printed forms

Lists are written in brackets and tables in braces, their members quoted.
-/

mutual

def quotedText : Value → String
  | .scalar s => s.quotedText
  | .list items => "[" ++ ", ".intercalate (quotedItems items) ++ "]"
  | .table fields => "\x7b" ++ ", ".intercalate (quotedFields fields) ++ "\x7d"

def quotedItems : List Value → List String
  | [] => []
  | item :: rest => item.quotedText :: quotedItems rest

def quotedFields : Fields → List String
  | [] => []
  | (name, value) :: rest => (name.quoted ++ ": " ++ value.quotedText) :: quotedFields rest

end

/-!
# Quoting

Every value within another is quoted one level deeper, and only so many levels can be left. A whole
number may be too long for its digits to be written.
-/

/-- The fault that quoting a value ends with, with some levels left for it. -/
def quoteFault? : Nat → Value → Option Fault
  | 0, _ => some .tooDeep
  | _ + 1, .scalar (.int n) => Fault.ofNumber? n
  | _ + 1, .scalar _ => none
  | levels + 1, .list items => items.findSome? (quoteFault? levels)
  | levels + 1, .table fields =>
      fields.findSome? fun field =>
        (quoteFault? levels (.scalar (.text field.1))).or (quoteFault? levels field.2)

def shown : Value → String
  | .scalar s => s.shown
  | other => other.quotedText

def kindName : Value → String
  | .scalar s => s.kindName
  | .list _ => "list"
  | .table _ => "dict"

/-- Whether a value counts as absent: null, false, zero or empty. -/
def isBlank : Value → Bool
  | .scalar s => s.isZero
  | .list items => items.isEmpty
  | .table fields => fields.isEmpty

/-!
# Fields
-/

/-- The value of the first field of that name. -/
def field? : Fields → String → Option Value
  | [], _ => none
  | (key, value) :: rest, name => if key = .whole name then some value else field? rest name

/-- Gives a field a new value. A name keeps its first place. -/
def insert (name : Text) (value : Value) : Fields → Fields
  | [] => [(name, value)]
  | (other, old) :: rest =>
      if other = name then (other, value) :: rest else (other, old) :: insert name value rest

theorem field?_insert (name : Text) (other : String) (value : Value) (fields : Fields) :
    field? (insert name value fields) other =
      if .whole other = name then some value else field? fields other := by
  induction fields with
  | nil => simp [insert, field?, eq_comm]
  | cons head rest ih =>
      obtain ⟨key, old⟩ := head
      by_cases hkey : key = name
      · by_cases h : .whole other = name
        · simp [insert, field?, hkey, h]
        · simp [insert, field?, hkey, h, Ne.symm h]
      · by_cases h : key = .whole other
        · have hne : .whole other ≠ name := fun e => hkey (h.trans e)
          simp [insert, field?, h, hne]
        · simp [insert, field?, hkey, h, ih]

def text (s : String) : Value := .scalar (.text (.whole s))

def int (n : Int) : Value := .scalar (.int n)

def null : Value := .scalar .null

/-- The characters that a value is written with, if it is a text and not broken. -/
def text? : Value → Option String
  | .scalar (.text t) => t.string?
  | _ => none

def isText : Value → Bool
  | .scalar (.text _) => true
  | _ => false

def isBroken (value : Value) : Bool :=
  value.isText && value.text?.isNone

end Value
end SourceReport

import SourceReport.Text.Digits

/-!
# Faults

Faults end a run without a report of their own: a document, a table or a path has a shape that it is
never meant to have, or a limit is passed.
-/

namespace SourceReport

inductive Fault where
  /-- A value was asked for something that its kind does not offer. -/
  | unsupported
  /-- A value of the wrong kind was given. -/
  | wrongKind
  /-- Bytes that are no UTF-8 were to be read as text. -/
  | undecodable
  /-- A text with a lone surrogate was to be written as bytes. -/
  | unencodable
  /-- An infinite number was to be made a whole one. -/
  | unbounded
  /-- A whole number has more digits than are read. -/
  | longNumeral (digits : Nat)
  /-- A whole number has more digits than are written. -/
  | longNumber
  /-- Lists and tables lie too deep within each other. -/
  | tooDeep
  /-- A path holds a null character. -/
  | nullInPath
  /-- It could not be found out what lies at a path. -/
  | inaccessible
  /-- A text would be longer than can be counted. -/
  | uncountable
  /-- A text would be longer than there is room for. -/
  | unaffordable
  deriving DecidableEq, Repr

namespace Fault

def message : Fault → String
  | .unsupported => "a value does not offer what was asked of it"
  | .wrongKind => "a value is of the wrong kind"
  | .undecodable => "a text is not UTF-8"
  | .unencodable => "a text holds a lone surrogate"
  | .unbounded => "a number is infinite"
  | .longNumeral digits => limitText ++ s!": value has {digits} digits" ++ limitAdvice
  | .longNumber => limitText ++ limitAdvice
  | .tooDeep => "lists and tables lie too deep within each other"
  | .nullInPath => "embedded null byte"
  | .inaccessible => "a path cannot be looked at"
  | .uncountable => "a text is too long to be counted"
  | .unaffordable => "there is no room for a text"
where
  limitText : String :=
    s!"Exceeds the limit ({Digits.limit} digits) for integer string conversion"
  limitAdvice : String :=
    "; use sys.set_int_max_str_digits() to increase the limit"

/-- The fault that writing a whole number ends with. -/
def ofNumber? (number : Int) : Option Fault :=
  if Digits.isWritable number then none else some .longNumber

end Fault

/-- Why a text in a data format is not read: it breaks the rules of the format, or reading it ends
in a fault. -/
inductive Unreadable where
  | malformed
  | fault (fault : Fault)
  deriving DecidableEq, Repr

namespace Unreadable

/-- What the rules of a format ask for at some place. -/
def required {α : Type} : Option α → Except Unreadable α
  | some found => .ok found
  | none => .error .malformed

end Unreadable
end SourceReport

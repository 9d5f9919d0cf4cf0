import SourceReport.Text.Quoted
import SourceReport.Value

/-!
# Writing JSON

A value on several lines, two blanks deeper for each level, in printable ASCII throughout: other
characters are escaped by their UTF-16 units.
-/

namespace SourceReport
namespace Json

def unitEscape (unit : Nat) : List Char :=
  '\\' :: 'u' :: Quoted.hex 4 unit

/-- A character as its one or two units of sixteen bits. -/
def units (code : Nat) : List Nat :=
  if code < 0x10000 then [code]
  else [0xD800 + (code - 0x10000) / 0x400, 0xDC00 + (code - 0x10000) % 0x400]

def escapeChar (c : Char) : List Char :=
  if c = '"' then ['\\', '"']
  else if c = '\\' then ['\\', '\\']
  else if c = '\n' then ['\\', 'n']
  else if c = '\r' then ['\\', 'r']
  else if c = '\t' then ['\\', 't']
  else if c = '\x08' then ['\\', 'b']
  else if c = '\x0c' then ['\\', 'f']
  else if 0x20 ≤ c.toNat ∧ c.toNat < 0x7F then [c]
  else (units c.toNat).flatMap unitEscape

def escapeUnit : TextUnit → List Char
  | .char c => escapeChar c
  | .surrogate code => unitEscape code

def writeText (text : Text) : String :=
  "\"" ++ String.ofList (text.units.flatMap escapeUnit) ++ "\""

def writeReal : Binary64 → String
  | .infinite negative => if negative then "-Infinity" else "Infinity"
  | .notANumber => "NaN"
  | x => x.toText

def writeScalar : Scalar → String
  | .null => "null"
  | .bool b => if b then "true" else "false"
  | .int n => toString n
  | .real x => writeReal x
  | .text t => writeText t
  | .moment spelling => writeText (.whole spelling)

def lineBreak (depth : Nat) : String :=
  "\n" ++ String.ofList (List.replicate (2 * depth) ' ')

mutual

def writeAt (depth : Nat) : Value → String
  | .scalar s => writeScalar s
  | .list [] => "[]"
  | .list (item :: rest) =>
      "[" ++ writeItems (depth + 1) (item :: rest) ++ lineBreak depth ++ "]"
  | .table [] => "\x7b\x7d"
  | .table (entry :: rest) =>
      "\x7b" ++ writeFields (depth + 1) (entry :: rest) ++ lineBreak depth ++ "\x7d"

def writeItems (depth : Nat) : List Value → String
  | [] => ""
  | [item] => lineBreak depth ++ writeAt depth item
  | item :: rest => lineBreak depth ++ writeAt depth item ++ "," ++ writeItems depth rest

def writeFields (depth : Nat) : Fields → String
  | [] => ""
  | [(name, value)] => lineBreak depth ++ writeText name ++ ": " ++ writeAt depth value
  | (name, value) :: rest =>
      lineBreak depth ++ writeText name ++ ": " ++ writeAt depth value ++ "," ++
        writeFields depth rest

end

def write (value : Value) : String :=
  writeAt 0 value

end Json
end SourceReport

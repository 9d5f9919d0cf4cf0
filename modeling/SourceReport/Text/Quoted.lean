import SourceReport.Text.Unprintable

/-!
# Quoted text

A text between quotation marks, on one line and printable throughout. Single marks are used unless
the text holds a single mark and no double one. A backslash, the mark in use and everything
unprintable is escaped.
-/

namespace SourceReport
namespace Quoted

/-- Lower-case hexadecimal digits, at least `width` of them. -/
def hex (width : Nat) (n : Nat) : List Char :=
  let digits := Nat.toDigits 16 n
  List.replicate (width - digits.length) '0' ++ digits

def escapeCode (code : Nat) : List Char :=
  if code < 0x100 then '\\' :: 'x' :: hex 2 code
  else if code < 0x10000 then '\\' :: 'u' :: hex 4 code
  else '\\' :: 'U' :: hex 8 code

def escapeChar (mark c : Char) : List Char :=
  if c = mark ∨ c = '\\' then ['\\', c]
  else if c = '\n' then ['\\', 'n']
  else if c = '\r' then ['\\', 'r']
  else if c = '\t' then ['\\', 't']
  else if isPrintable c then [c]
  else escapeCode c.toNat

def markFor (text : List Char) : Char :=
  if '\'' ∈ text ∧ '"' ∉ text then '"' else '\''

def encode (text : List Char) : List Char :=
  let mark := markFor text
  mark :: (text.flatMap (escapeChar mark) ++ [mark])

end Quoted

def quoted (text : String) : String :=
  String.ofList (Quoted.encode text.toList)

end SourceReport

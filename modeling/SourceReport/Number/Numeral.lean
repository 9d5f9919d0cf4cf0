import SourceReport.Number.Binary64
import SourceReport.Text.Digits

/-!
# Numerals

A decimal number as it is written: digits, then perhaps a fraction and an exponent. With one of these
it is a double, without them it is a whole number, unless it has too many digits to be read as one.
What counts as a run of digits is up to the format, which gives the function that takes such a run
from the start of a text.
-/

namespace SourceReport

inductive Numeral where
  | whole (n : Int)
  | real (x : Binary64)
  | tooLong (digits : Nat)
  deriving DecidableEq, Repr

namespace Numeral

abbrev Run := List Char → List Char × List Char

variable (run : Run)

/-- The digits before the point: a zero, or a run that does not begin with one. -/
def wholePart? (text : List Char) : Option (List Char × List Char) :=
  match text with
  | '0' :: rest => some (['0'], rest)
  | _ =>
      match run text with
      | ([], _) => none
      | found => some found

/-- The digits of a fraction, if a point and at least one digit follow. -/
def fraction (text : List Char) : List Char × List Char :=
  match text with
  | '.' :: rest =>
      match run rest with
      | ([], _) => ([], text)
      | found => found
  | _ => ([], text)

def exponentDigits? (negative : Bool) (text : List Char) : Option (Int × List Char) :=
  match run text with
  | ([], _) => none
  | (digits, rest) =>
      let n : Int := Digits.number 10 digits
      some (if negative then -n else n, rest)

def signedExponent? (text : List Char) : Option (Int × List Char) :=
  match text with
  | '-' :: rest => exponentDigits? run true rest
  | '+' :: rest => exponentDigits? run false rest
  | rest => exponentDigits? run false rest

def exponent? (text : List Char) : Option (Int × List Char) :=
  match text with
  | 'e' :: rest => signedExponent? run rest
  | 'E' :: rest => signedExponent? run rest
  | _ => none

/-- Reads a numeral after its sign. What looks like an exponent without digits is left over. -/
def read? (negative : Bool) (text : List Char) : Option (Numeral × List Char) :=
  match wholePart? run text with
  | none => none
  | some (first, rest) =>
      let (places, rest) := fraction run rest
      let digits := Digits.number 10 (first ++ places)
      match exponent? run rest with
      | some (power, rest) =>
          some (.real (.ofDecimal negative digits (power - places.length)), rest)
      | none =>
          if !places.isEmpty then some (.real (.ofDecimal negative digits (-places.length)), rest)
          else if Digits.limit < first.length then some (.tooLong first.length, rest)
          else some (.whole (if negative then -digits else digits), rest)

end Numeral
end SourceReport

/-!
# Digits

Digits in some base, and the number that a list of them writes.
-/

namespace SourceReport
namespace Digits

/-- The most decimal digits of a whole number that is read or written. -/
def limit : Nat := 4300

/-- Whether a whole number has few enough digits to be written. Its sign is not counted. -/
def isWritable (number : Int) : Bool :=
  (Nat.toDigits 10 number.natAbs).length ≤ limit

/-- The value of a digit or a letter as a digit. -/
def value? (c : Char) : Option Nat :=
  if '0' ≤ c ∧ c ≤ '9' then some (c.toNat - '0'.toNat)
  else if 'a' ≤ c ∧ c ≤ 'z' then some (c.toNat - 'a'.toNat + 10)
  else if 'A' ≤ c ∧ c ≤ 'Z' then some (c.toNat - 'A'.toNat + 10)
  else none

def isDigit (base : Nat) (c : Char) : Bool :=
  (value? c).any (· < base)

def number (base : Nat) (digits : List Char) : Nat :=
  digits.foldl (fun n c => n * base + (value? c).getD 0) 0

/-- The leading digits of a text, and what follows them. -/
def span (base : Nat) (text : List Char) : List Char × List Char :=
  (text.takeWhile (isDigit base), text.dropWhile (isDigit base))

/-- A number of exactly `count` digits at the start of a text. -/
def fixed? (base count : Nat) (text : List Char) : Option (Nat × List Char) :=
  let digits := text.take count
  if digits.length = count ∧ digits.all (isDigit base) then
    some (number base digits, text.drop count)
  else none

/-- Further digits after a first one; single underscores may stand between two digits. -/
def groupedAfter (base : Nat) : List Char → List Char × List Char
  | [] => ([], [])
  | '_' :: c :: rest =>
      if isDigit base c then
        let (digits, after) := groupedAfter base rest
        (c :: digits, after)
      else ([], '_' :: c :: rest)
  | c :: rest =>
      if isDigit base c then
        let (digits, after) := groupedAfter base rest
        (c :: digits, after)
      else ([], c :: rest)

/-- The leading digits of a text without their underscores, and what follows them. -/
def grouped (base : Nat) : List Char → List Char × List Char
  | [] => ([], [])
  | c :: rest =>
      if isDigit base c then
        let (digits, after) := groupedAfter base rest
        (c :: digits, after)
      else ([], c :: rest)

end Digits
end SourceReport

import SourceReport.Text.Digits

/-!
# Dates and times of TOML

A date, a time of day, or both with a letter `T` or a blank between them and perhaps an offset. What
does not belong to the longest such form is left over.
-/

namespace SourceReport
namespace Toml

/-- Two digits of a number within bounds. -/
def two? (low high : Nat) (text : List Char) : Option (Nat × List Char) :=
  (Digits.fixed? 10 2 text).filter fun found => low ≤ found.1 && found.1 ≤ high

/-- Two digits of a number within bounds, after a mark. -/
def twoAfter? (mark : Char) (low high : Nat) (text : List Char) : Option (Nat × List Char) :=
  match text with
  | c :: rest => if c = mark then two? low high rest else none
  | [] => none

/-!
# Dates
-/

structure Date where
  year : Nat
  month : Nat
  day : Nat
  deriving DecidableEq, Repr

namespace Date

def isLeapYear (year : Nat) : Bool :=
  year % 4 = 0 && (year % 100 ≠ 0 || year % 400 = 0)

def daysIn (year month : Nat) : Nat :=
  if month = 2 then (if isLeapYear year then 29 else 28)
  else if month = 4 ∨ month = 6 ∨ month = 9 ∨ month = 11 then 30
  else 31

/-- Whether a date is one of the calendar, which begins with the year one. -/
def inCalendar (date : Date) : Bool :=
  1 ≤ date.year && date.day ≤ daysIn date.year date.month

end Date

def date? (text : List Char) : Option (Date × List Char) := do
  let (year, rest) ← Digits.fixed? 10 4 text
  let (month, rest) ← twoAfter? '-' 1 12 rest
  let (day, rest) ← twoAfter? '-' 1 31 rest
  return ({ year, month, day }, rest)

/-!
# Times of day
-/

/-- What follows the fraction of a second, if there is one. -/
def skipFraction (text : List Char) : List Char :=
  match text with
  | '.' :: rest =>
      match Digits.span 10 rest with
      | ([], _) => text
      | (_, after) => after
  | _ => text

/-- What follows a time of day. -/
def afterTime? (text : List Char) : Option (List Char) := do
  let (_, rest) ← two? 0 23 text
  let (_, rest) ← twoAfter? ':' 0 59 rest
  let (_, rest) ← twoAfter? ':' 0 59 rest
  return skipFraction rest

def afterHours? (text : List Char) : Option (List Char) := do
  let (_, rest) ← two? 0 23 text
  let (_, rest) ← twoAfter? ':' 0 59 rest
  return rest

/-- What follows an offset from the time of the meridian, if there is one. -/
def skipOffset (text : List Char) : List Char :=
  match text with
  | 'Z' :: rest => rest
  | 'z' :: rest => rest
  | '+' :: rest => (afterHours? rest).getD text
  | '-' :: rest => (afterHours? rest).getD text
  | _ => text

/-- What follows the time that belongs to a date, if there is one. -/
def skipTimeOfDate (text : List Char) : List Char :=
  match text with
  | c :: rest =>
      if c = 'T' ∨ c = 't' ∨ c = ' ' then
        match afterTime? rest with
        | some after => skipOffset after
        | none => text
      else text
  | [] => []

end Toml
end SourceReport

import SourceReport.Machine
import SourceReport.Source.FileBase

/-!
# Pieces

A row is written piece by piece. Many pieces are texts that are there already. Blanks, repeated texts
and numbers are made when they are written, and that may end in a fault.
-/

namespace SourceReport

def repeated (count : Nat) (text : String) : String :=
  String.join (List.replicate count text)

def spaces (count : Nat) : String :=
  "".pushn ' ' count

theorem toList_spaces (count : Nat) : (spaces count).toList = List.replicate count ' ' := by
  induction count with
  | zero => simp [spaces, String.pushn, Nat.repeat]
  | succ count ih =>
      have step : spaces (count + 1) = (spaces count).push ' ' := rfl
      rw [step, String.toList_push, ih, List.replicate_succ']

inductive Piece where
  | text (text : String)
  | blanks (count : Nat)
  | repeated (count : Nat) (text : String)
  /-- A number at the right end of a width. -/
  | numeral (width : Nat) (number : Int)
  | locus (locus : Locus)
  deriving DecidableEq, Repr

instance : Coe String Piece := ⟨.text⟩

namespace Piece

def string : Piece → String
  | .text made => made
  | .blanks count => spaces count
  | .repeated count part => SourceReport.repeated count part
  | .numeral width number =>
      let digits := toString number
      spaces (width - digits.length) ++ digits
  | .locus place => place.text

@[simp]
theorem string_text (made : String) : (Piece.text made).string = made := rfl

@[simp]
theorem string_blanks (count : Nat) : (blanks count).string = spaces count := rfl

@[simp]
theorem string_repeated (count : Nat) (part : String) :
    (Piece.repeated count part).string = SourceReport.repeated count part := rfl

@[simp]
theorem string_numeral (width : Nat) (number : Int) :
    (numeral width number).string =
      spaces (width - (toString number).length) ++ toString number := rfl

@[simp]
theorem string_locus (place : Locus) : (Piece.locus place).string = place.text := rfl

/-- The fault that making a piece ends with. A count is looked at before the text that it repeats. -/
def fault? (machine : Machine) : Piece → Option Fault
  | .text _ => none
  | .blanks count => machine.lengthFault? count
  | .repeated count part =>
      if Machine.countable < count then some .uncountable
      else machine.lengthFault? (count * part.length)
  | .numeral width number =>
      (Fault.ofNumber? number).or (machine.lengthFault? (max width (toString number).length))
  | .locus place =>
      (Fault.ofNumber? place.location.lineNumber).or
        (Fault.ofNumber? place.location.columnNumber)

end Piece
end SourceReport

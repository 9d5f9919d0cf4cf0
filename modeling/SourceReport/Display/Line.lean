import SourceReport.Display.Wide
import SourceReport.Display.ZeroWidth
import SourceReport.Text.CodeRange

/-!
# Displayed lines

The characters of a line with their places: where each one stands among the bytes of the line, and
how many terminal columns it takes.
-/

namespace SourceReport

/-- Columns taken by a character other than a tab. -/
def charWidth (c : Char) : Nat :=
  let code := c.toNat
  if code < 0x20 ∨ (0x7F ≤ code ∧ code ≤ 0x9F) then 0
  else if CodeRange.covers zeroWidthRanges code then 0
  else if CodeRange.covers pictureRanges code then 2
  else if CodeRange.covers wideRanges code then 2
  else 1

structure PlacedChar where
  char : Char
  byteIndex : Nat
  byteLength : Nat
  width : Nat
  deriving DecidableEq, Repr

namespace PlacedChar

def byteRange (placed : PlacedChar) : Int × Int :=
  (placed.byteIndex, placed.byteIndex + placed.byteLength)

end PlacedChar

namespace Line

/-- A tab reaches to the next multiple of the tab width, and has no width if there are no stops. -/
def widthAt (tabWidth column : Nat) (c : Char) : Nat :=
  if c = '\t' then
    if 0 < tabWidth then tabWidth - column % tabWidth else 0
  else charWidth c

def placeFrom (tabWidth byteIndex column : Nat) : List Char → List PlacedChar
  | [] => []
  | c :: rest =>
      let width := widthAt tabWidth column c
      { char := c, byteIndex, byteLength := c.utf8Size, width } ::
        placeFrom tabWidth (byteIndex + c.utf8Size) (column + width) rest

/-- The characters of a line, from its first column on. -/
def place (tabWidth : Nat) (line : List Char) : List PlacedChar :=
  placeFrom tabWidth 0 0 line

def byteLength (line : List Char) : Nat :=
  line.foldr (fun c length => c.utf8Size + length) 0

def isTrailing (c : Char) : Bool :=
  c = '\n' || c = '\r' || c = '\x00'

/-- The line without the newlines, carriage returns and null characters at its end. -/
def trimTrailing (line : List Char) : List Char :=
  (line.reverse.dropWhile isTrailing).reverse

/-- The spaces and tabs that a line begins with, counted in bytes, of which each takes one. -/
def indent (line : List Char) : Nat :=
  (line.takeWhile fun c => c = ' ' || c = '\t').length

end Line

/-- Whether two half-open ranges share an offset. -/
def overlaps (a b : Int × Int) : Bool :=
  max a.1 b.1 < min a.2 b.2

end SourceReport

import SourceReport.Text.Quoted
import SourceReport.Text.Utf8

/-!
# Texts

A text holds characters. A format that names characters by sixteen-bit units can also name one half
of a surrogate pair without the other. A text with such a half is broken: it can be compared and
quoted, but it has no encoding.
-/

namespace SourceReport

inductive TextUnit where
  | char (c : Char)
  | surrogate (code : Nat)
  deriving DecidableEq, Repr

inductive Text where
  | whole (s : String)
  | broken (units : List TextUnit)
  deriving DecidableEq, Repr, Inhabited

instance : Coe String Text := ⟨.whole⟩

namespace TextUnit

def char? : TextUnit → Option Char
  | .char c => some c
  | .surrogate _ => none

/-- A unit as a character. A replacement character stands for a surrogate. -/
def replaced : TextUnit → Char
  | .char c => c
  | .surrogate _ => '\uFFFD'

/-- A unit in characters. A surrogate is escaped by its code. -/
def escaped : TextUnit → List Char
  | .char c => [c]
  | .surrogate code => Quoted.escapeCode code

def quoted (mark : Char) : TextUnit → List Char
  | .char c => Quoted.escapeChar mark c
  | .surrogate code => Quoted.escapeCode code

end TextUnit

namespace Text

/-!
# Units
-/

def units : Text → List TextUnit
  | .whole s => s.toList.map .char
  | .broken units => units

/-- The text of some units, which is broken if one of them is a surrogate. -/
def ofUnits (units : List TextUnit) : Text :=
  match units.mapM TextUnit.char? with
  | some chars => .whole (String.ofList chars)
  | none => .broken units

theorem mapM_char?_map_char (chars : List Char) :
    (chars.map TextUnit.char).mapM TextUnit.char? = some chars := by
  induction chars with
  | nil => rfl
  | cons c rest ih => simp [TextUnit.char?, ih]

theorem map_char_of_mapM_char? {units : List TextUnit} {chars : List Char}
    (h : units.mapM TextUnit.char? = some chars) : chars.map TextUnit.char = units := by
  induction units generalizing chars with
  | nil =>
      simp at h
      simp [h]
  | cons unit rest ih =>
      cases unit with
      | char c =>
          simp only [List.mapM_cons, TextUnit.char?, Option.pure_def, Option.bind_eq_bind,
            Option.bind_some, Option.bind_eq_some_iff, Option.some.injEq] at h
          obtain ⟨tail, htail, rfl⟩ := h
          simp [ih htail]
      | surrogate code => simp [TextUnit.char?] at h

@[simp]
theorem ofUnits_units_whole (s : String) : ofUnits (whole s).units = whole s := by
  rw [ofUnits, units, mapM_char?_map_char]
  simp

@[simp]
theorem units_ofUnits (list : List TextUnit) : (ofUnits list).units = list := by
  unfold ofUnits
  split
  · next chars h => simp [units, map_char_of_mapM_char? h]
  · rfl

/-!
# Forms of a text
-/

def string? : Text → Option String
  | .whole s => some s
  | .broken _ => none

def isEmpty : Text → Bool
  | .whole s => s.isEmpty
  | .broken units => units.isEmpty

/-- The characters of a text, with its surrogates replaced. -/
def chars (text : Text) : List Char :=
  text.units.map TextUnit.replaced

/-- The text as it is shown where surrogates cannot be written. -/
def shown : Text → String
  | .whole s => s
  | .broken units => String.ofList (units.flatMap TextUnit.escaped)

def quoted : Text → String
  | .whole s => SourceReport.quoted s
  | .broken units =>
      let mark := Quoted.markFor (units.filterMap TextUnit.char?)
      String.ofList (mark :: (units.flatMap (TextUnit.quoted mark) ++ [mark]))

theorem chars_whole (s : String) : (whole s).chars = s.toList := by
  simp only [chars, units, List.map_map]
  exact List.map_id' s.toList

end Text
end SourceReport

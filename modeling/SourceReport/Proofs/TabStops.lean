import Mathlib.Order.Bounds.Basic
import SourceReport.Proofs.HangingMessages

/-!
# Tab stops

The places of the characters of a line tile its bytes, and their widths run from one tab stop to the
next. What stands before a character does not depend on what follows it, and a row that shows blanks
for tabs shows every other character in its own column.
-/

namespace SourceReport
namespace Line

/-- Ranges of which none is empty and each begins where the one before it ends. -/
def Tile : Int → List (Int × Int) → Int → Prop
  | start, [], stop => start = stop
  | start, range :: rest, stop => range.1 = start ∧ start < range.2 ∧ Tile range.2 rest stop

/-- The text that a source row shows for characters. -/
def shownText (placed : List PlacedChar) : List Char :=
  placed.flatMap fun one => (Pencil.sourceText one).string.toList

/-- What the places of the characters of a line say about it. -/
structure AccountsFor (tabWidth : Nat) (line : List Char) (placed : List PlacedChar) : Prop where
  chars_eq : placed.map (·.char) = line
  tiled : Tile 0 (placed.map (·.byteRange)) (Utf8.encode line).length
  /-- The bytes in the range of a character are those of the character. -/
  encoded : ∀ one ∈ placed,
    ((Utf8.encode line).drop one.byteIndex).take one.byteLength = Utf8.encode [one.char]
  /-- The columns through a tab end at the first stop beyond the columns before it. -/
  tab_stop : ∀ front tab back, placed = front ++ tab :: back → tab.char = '\t' → 0 < tabWidth →
    IsLeast {stop | tabWidth ∣ stop ∧ totalWidth front < stop} (totalWidth (front ++ [tab]))
  no_stops : tabWidth = 0 → ∀ tab ∈ placed, tab.char = '\t' → tab.width = 0
  other_width : ∀ one ∈ placed, one.char ≠ '\t' → one.width = charWidth one.char
  beginning : ∀ count, place tabWidth (line.take count) = placed.take count
  /-- The characters before an offset can be placed anew. -/
  cut : ∀ offset, place tabWidth ((charsBefore placed offset).map (·.char)) =
    charsBefore placed offset
  /-- In the line with blanks for its tabs, whatever the tab width is by then, a character that is
  no tab comes after what is shown for the characters before it, in as many columns as they take. -/
  expanded : ∀ otherWidth front one back, placed = front ++ one :: back → one.char ≠ '\t' →
    ∃ before next after, place otherWidth (shownText placed) = before ++ next :: after ∧
      before.map (·.char) = shownText front ∧ next.char = one.char ∧
      after.map (·.char) = shownText back ∧ totalWidth before = totalWidth front ∧
      next.width = one.width

/-!
# Places of parts
-/

theorem map_char_placeFrom (tabWidth byteIndex column : Nat) (line : List Char) :
    (placeFrom tabWidth byteIndex column line).map (·.char) = line := by
  induction line generalizing byteIndex column with
  | nil => rfl
  | cons c rest ih => rw [placeFrom, List.map_cons, ih]

theorem placeFrom_append (tabWidth byteIndex column : Nat) (front back : List Char) :
    placeFrom tabWidth byteIndex column (front ++ back) =
      placeFrom tabWidth byteIndex column front ++
        placeFrom tabWidth (byteIndex + byteLength front)
          (column + totalWidth (placeFrom tabWidth byteIndex column front)) back := by
  induction front generalizing byteIndex column with
  | nil => rfl
  | cons c rest ih =>
      have bytes : byteLength (c :: rest) = c.utf8Size + byteLength rest := rfl
      rw [List.cons_append, placeFrom, ih, placeFrom, List.cons_append, totalWidth_cons, bytes,
        Nat.add_assoc, Nat.add_assoc]

theorem placeFrom_take (tabWidth byteIndex column : Nat) (line : List Char) (count : Nat) :
    placeFrom tabWidth byteIndex column (line.take count) =
      (placeFrom tabWidth byteIndex column line).take count := by
  induction line generalizing byteIndex column count with
  | nil => rw [List.take_nil, placeFrom, List.take_nil]
  | cons c rest ih =>
      cases count with
      | zero => rfl
      | succ count => rw [List.take_succ_cons, placeFrom, ih, placeFrom, List.take_succ_cons]

variable {tabWidth : Nat} {line : List Char}

/-- A prefix of places is that of its characters. -/
theorem place_of_isPrefix {cut : List PlacedChar} (h : cut <+: place tabWidth line) :
    place tabWidth (cut.map (·.char)) = cut := by
  have taken := List.prefix_iff_eq_take.mp h
  have chars := congrArg (List.map (·.char)) taken
  rw [List.map_take, place, map_char_placeFrom] at chars
  rw [chars, place, placeFrom_take]
  exact taken.symm

/-- A place is determined by the characters before it. -/
theorem place_eq_append_cons {front back : List PlacedChar} {one : PlacedChar}
    (parts : place tabWidth line = front ++ one :: back) :
    one.width = widthAt tabWidth (totalWidth front) one.char := by
  have chars := map_char_placeFrom tabWidth 0 0 line
  have kept : place tabWidth (front.map (·.char)) = front :=
    place_of_isPrefix (parts ▸ List.prefix_append front (one :: back))
  rw [← place, parts, List.map_append, List.map_cons] at chars
  rw [← chars, place, placeFrom_append, ← place, kept, placeFrom] at parts
  have first := (List.cons.inj (List.append_cancel_left parts)).1
  have width := congrArg PlacedChar.width first
  simp only [Nat.zero_add] at width
  exact width.symm

/-!
# Bytes
-/

theorem tile_placeFrom (tabWidth byteIndex column : Nat) (line : List Char) :
    Tile byteIndex ((placeFrom tabWidth byteIndex column line).map (·.byteRange))
      (byteIndex + byteLength line : Nat) := by
  induction line generalizing byteIndex column with
  | nil => rfl
  | cons c rest ih =>
      have bytes : byteLength (c :: rest) = c.utf8Size + byteLength rest := rfl
      have positive := c.utf8Size_pos
      have others := ih (byteIndex + c.utf8Size) (column + widthAt tabWidth column c)
      rw [placeFrom, List.map_cons, bytes, ← Nat.add_assoc]
      refine ⟨rfl, ?_, ?_⟩
      · show (byteIndex : Int) < byteIndex + c.utf8Size
        omega
      · show Tile (byteIndex + c.utf8Size : Int) _ _
        rw [← Int.natCast_add]
        exact others

theorem encoded_of_mem {one : PlacedChar} (member : one ∈ place tabWidth line) :
    ((Utf8.encode line).drop one.byteIndex).take one.byteLength = Utf8.encode [one.char] := by
  rcases exists_of_mem_placeFrom member with ⟨front, back, parts, index, length⟩
  have start : one.byteIndex = (Utf8.encode front).length := by rw [index, Nat.zero_add]
  have size : one.byteLength = (String.utf8EncodeChar one.char).length := by
    rw [length, String.length_utf8EncodeChar]
  rw [parts, Utf8.encode_append, Utf8.encode_cons, start, size, List.drop_left, List.take_left,
    Utf8.encode_cons, Utf8.encode_nil, List.append_nil]

/-!
# Columns
-/

/-- A tab reaches to the first stop beyond the column that it stands in. -/
theorem isLeast_tabStop (positive : 0 < tabWidth) (column : Nat) :
    IsLeast {stop | tabWidth ∣ stop ∧ column < stop} (column + widthAt tabWidth column '\t') := by
  have below : column % tabWidth < tabWidth := Nat.mod_lt column positive
  have whole := Nat.div_add_mod column tabWidth
  have stop : column + widthAt tabWidth column '\t' = tabWidth * (column / tabWidth + 1) := by
    rw [widthAt, if_pos rfl, if_pos positive, Nat.mul_add]
    omega
  rw [stop]
  constructor
  · refine ⟨Nat.dvd_mul_right tabWidth _, ?_⟩
    rw [Nat.mul_add]
    omega
  · rintro later ⟨⟨factor, rfl⟩, beyond⟩
    have steps : column / tabWidth < factor := Nat.div_lt_of_lt_mul beyond
    exact Nat.mul_le_mul_left tabWidth steps

/-- Without tabs the columns of characters are those of their text. -/
theorem totalWidth_placeFrom {text : List Char} (plain : '\t' ∉ text)
    (otherWidth byteIndex column : Nat) :
    totalWidth (placeFrom otherWidth byteIndex column text) = displayWidth text := by
  induction text generalizing byteIndex column with
  | nil => rfl
  | cons c rest ih =>
      rw [List.mem_cons, not_or] at plain
      have step : displayWidth (c :: rest) = charWidth c + displayWidth rest := rfl
      rw [placeFrom, totalWidth_cons, ih plain.2, widthAt, if_neg (Ne.symm plain.1), step]

theorem toList_sourceText {one : PlacedChar} (other : one.char ≠ '\t') :
    (Pencil.sourceText one).string.toList = [one.char] := by
  rw [Pencil.sourceText, if_neg other, Piece.string_text, String.toList_singleton]

theorem tab_not_mem_shownText (placed : List PlacedChar) : '\t' ∉ shownText placed := by
  intro member
  rcases List.mem_flatMap.mp member with ⟨one, _, shown⟩
  by_cases tab : one.char = '\t'
  · rw [Pencil.sourceText, if_pos tab, Piece.string_blanks, toList_spaces] at shown
    cases List.eq_of_mem_replicate shown
  · rw [toList_sourceText tab, List.mem_singleton] at shown
    exact tab shown.symm

theorem exists_expanded (otherWidth : Nat) {front back : List PlacedChar} {one : PlacedChar}
    (parts : place tabWidth line = front ++ one :: back) (other : one.char ≠ '\t') :
    ∃ before next after,
      place otherWidth (shownText (place tabWidth line)) = before ++ next :: after ∧
        before.map (·.char) = shownText front ∧ next.char = one.char ∧
        after.map (·.char) = shownText back ∧ totalWidth before = totalWidth front ∧
        next.width = one.width := by
  have shown : shownText (place tabWidth line) =
      shownText front ++ one.char :: shownText back := by
    rw [parts, shownText, List.flatMap_append, List.flatMap_cons, toList_sourceText other]
    rfl
  have listed : ∀ earlier ∈ front, earlier ∈ place tabWidth line := by
    intro earlier member
    rw [parts]
    exact List.mem_append_left _ member
  have columns : totalWidth (place otherWidth (shownText front)) = totalWidth front := by
    rw [place, totalWidth_placeFrom (tab_not_mem_shownText front)]
    exact displayWidth_sourceTexts listed
  have anew : place otherWidth (shownText (place tabWidth line)) =
      place otherWidth (shownText front) ++
        placeFrom otherWidth (0 + byteLength (shownText front)) (0 + totalWidth front)
          (one.char :: shownText back) := by
    rw [shown, ← columns]
    exact placeFrom_append otherWidth 0 0 (shownText front) (one.char :: shownText back)
  rw [placeFrom] at anew
  refine ⟨_, _, _, anew, map_char_placeFrom .., rfl, map_char_placeFrom .., columns, ?_⟩
  rw [place_eq_append_cons parts, widthAt, widthAt, if_neg other, if_neg other]

/-- The places of a line account for its bytes and columns. -/
theorem columns_exact (tabWidth : Nat) (line : List Char) :
    AccountsFor tabWidth line (place tabWidth line) where
  chars_eq := map_char_placeFrom tabWidth 0 0 line
  tiled := by
    have tiles := tile_placeFrom tabWidth 0 0 line
    rw [Nat.zero_add] at tiles
    rw [length_encode]
    exact tiles
  encoded _ member := encoded_of_mem member
  tab_stop front tab back parts isTab positive := by
    have width := place_eq_append_cons parts
    rw [isTab] at width
    rw [totalWidth_append, totalWidth_cons, width]
    exact isLeast_tabStop positive (totalWidth front)
  no_stops none tab member isTab := by
    rcases List.append_of_mem member with ⟨front, back, parts⟩
    rw [place_eq_append_cons parts, isTab, none, widthAt, if_pos rfl, if_neg (Nat.lt_irrefl 0)]
  other_width one member other := by
    rcases List.append_of_mem member with ⟨front, back, parts⟩
    rw [place_eq_append_cons parts, widthAt, if_neg other]
  beginning := placeFrom_take tabWidth 0 0 line
  cut offset := by
    have first : charsBefore (place tabWidth line) offset <+: place tabWidth line := by
      rw [place, charsBefore_eq_takeWhile (pairwise_placeFrom tabWidth 0 0 line)]
      exact List.takeWhile_prefix _
    exact place_of_isPrefix first
  expanded otherWidth _ _ _ parts other := exists_expanded otherWidth parts other

end Line
end SourceReport

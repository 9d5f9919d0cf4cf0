import SourceReport.Proofs.Blocks
import SourceReport.Proofs.HangingMessages
import SourceReport.Proofs.Mentions

/-!
# Empty labels

An empty label marks the byte after its offset, so that it has a caret under the character there, or
under the place after the last character. There is none if the character takes no column, or if the
offset lies behind that place, among the characters that end the line.
-/

namespace SourceReport

/-- The caret of a label. -/
def Glyphs.caret (glyphs : Glyphs) : LabelStyle → String
  | .primary => glyphs.primaryCaret
  | .secondary => glyphs.secondaryCaret

namespace Line

variable {tabWidth : Nat} {line : List Char} {marks : List SingleMark} {slot : PlacedChar}

/-!
# Carets under a place
-/

/-- The caret row has a caret in a column of the place. -/
def HasCaret (glyphs : Glyphs) (tabWidth : Nat) (line : List Char) (marks : List SingleMark)
    (slot : PlacedChar) : Prop :=
  ∃ column < caretWidth tabWidth line marks, occupant? (slots tabWidth line) column = some slot ∧
    ∃ mark ∈ marks, overlaps mark.range slot.byteRange = true ∧
      caretAt glyphs tabWidth line marks column = (glyphs.caret mark.style).toList

/-- Under an overlapped character stand the carets of one of the marks that overlap it. -/
theorem exists_caretUnder_eq (glyphs : Glyphs)
    (h : ∃ mark ∈ marks, overlaps mark.range slot.byteRange = true) :
    ∃ mark ∈ marks, overlaps mark.range slot.byteRange = true ∧
      caretUnder glyphs marks slot = (glyphs.caret mark.style).toList := by
  rw [caretUnder]
  split
  · rename_i primary
    rcases List.any_eq_true.mp primary with ⟨mark, member, both⟩
    rcases Bool.and_eq_true_iff.mp both with ⟨style, overlap⟩
    refine ⟨mark, member, overlap, ?_⟩
    rw [of_decide_eq_true style, Glyphs.caret]
  · rename_i unmarked
    rcases h with ⟨mark, member, overlap⟩
    have secondary : mark.style = .secondary := by
      cases style : mark.style with
      | secondary => rfl
      | primary =>
          refine absurd (List.any_eq_true.mpr ⟨mark, member, ?_⟩) unmarked
          rw [style, overlap]
          rfl
    rw [if_pos (List.any_eq_true.mpr ⟨mark, member, overlap⟩)]
    refine ⟨mark, member, overlap, ?_⟩
    rw [secondary, Glyphs.caret]

/-- A place has a caret exactly if it has a column and a mark overlaps it. -/
theorem hasCaret_iff (glyphs : Glyphs) (member : slot ∈ slots tabWidth line) :
    HasCaret glyphs tabWidth line marks slot ↔
      0 < slot.width ∧ ∃ mark ∈ marks, overlaps mark.range slot.byteRange = true := by
  constructor
  · rintro ⟨column, _, taken, mark, listed, overlap, _⟩
    rcases occupant?_eq_some_iff.mp taken with ⟨front, back, _, reached, inside⟩
    exact ⟨by omega, mark, listed, overlap⟩
  · rintro ⟨wide, overlapped⟩
    rcases List.append_of_mem member with ⟨front, back, parts⟩
    have taken : occupant? (slots tabWidth line) (totalWidth front) = some slot :=
      occupant?_eq_some_iff.mpr ⟨front, back, parts, Nat.le_refl _, Nat.lt_add_of_pos_right wide⟩
    have reached := isReached_of_overlaps (List.any_eq_true.mpr overlapped)
    refine ⟨totalWidth front, lt_caretWidth taken reached, taken, ?_⟩
    rw [caretAt_eq taken]
    exact exists_caretUnder_eq glyphs overlapped

/-!
# The place of an offset
-/

/-- The character that begins at an offset, or else the place after the last character. -/
def slotAt (tabWidth : Nat) (line : List Char) (offset : Nat) : PlacedChar :=
  ((place tabWidth line).find? fun one => one.byteIndex = offset).getD (placeholder line)

theorem byteRange_placeholder (line : List Char) :
    (placeholder line).byteRange = ((byteLength line : Int), (byteLength line : Int) + 1) := rfl

theorem slotAt_mem (tabWidth : Nat) (line : List Char) (offset : Nat) :
    slotAt tabWidth line offset ∈ slots tabWidth line := by
  rw [slotAt, slots]
  cases found : (place tabWidth line).find? fun one => one.byteIndex = offset with
  | none => exact List.mem_append_right _ (List.mem_singleton.mpr rfl)
  | some one => exact List.mem_append_left _ (List.mem_of_find?_eq_some found)

/-- Between two characters of the line, the place of an offset begins with its byte. -/
theorem slotAt_inside (tabWidth : Nat) {offset : Nat} {ending : List Char}
    (cut : Utf8.IsCut (line ++ ending) offset) (inside : offset < byteLength line) :
    (slotAt tabWidth line offset).byteIndex = offset ∧
      0 < (slotAt tabWidth line offset).byteLength := by
  rcases exists_byteIndex_eq tabWidth cut inside with ⟨one, member, index⟩
  rw [slotAt]
  cases found : (place tabWidth line).find? fun one => one.byteIndex = offset with
  | none =>
      have other := List.find?_eq_none.mp found one member
      exact absurd (decide_eq_true index) other
  | some first =>
      rcases exists_of_mem_placeFrom (List.mem_of_find?_eq_some found) with ⟨_, _, _, _, length⟩
      have same := List.find?_some found
      refine ⟨of_decide_eq_true same, ?_⟩
      rw [Option.getD_some, length]
      exact first.char.utf8Size_pos

theorem slotAt_beyond {offset : Nat} (beyond : byteLength line ≤ offset) :
    slotAt tabWidth line offset = placeholder line := by
  have none : (place tabWidth line).find? (fun one => one.byteIndex = offset) = none := by
    rw [List.find?_eq_none]
    intro one member
    have before := byteIndex_lt member
    rw [decide_eq_true_eq]
    omega
  rw [slotAt, none, Option.getD_none]

/-- The mark of an empty label has a caret, unless its character has no column or the offset lies
behind the end of the line and no other mark reaches there. -/
theorem hasCaret_slotAt_iff (glyphs : Glyphs) {offset : Nat} {ending : List Char}
    (cut : Utf8.IsCut (line ++ ending) offset) {mark : SingleMark} (member : mark ∈ marks)
    (range : mark.range = ((offset : Int), (offset : Int) + 1)) :
    HasCaret glyphs tabWidth line marks (slotAt tabWidth line offset) ↔
      (offset < byteLength line → 0 < (slotAt tabWidth line offset).width) ∧
        (byteLength line < offset →
          ∃ mark ∈ marks, overlaps mark.range (placeholder line).byteRange = true) := by
  rw [hasCaret_iff glyphs (slotAt_mem tabWidth line offset)]
  rcases Nat.lt_trichotomy offset (byteLength line) with inside | same | beyond
  · rcases slotAt_inside tabWidth cut inside with ⟨index, length⟩
    have overlap : overlaps mark.range (slotAt tabWidth line offset).byteRange = true := by
      rw [range, PlacedChar.byteRange, index, overlaps, decide_eq_true_eq]
      omega
    constructor
    · rintro ⟨wide, _⟩
      exact ⟨fun _ => wide, fun after => absurd after (Nat.not_lt_of_gt inside)⟩
    · rintro ⟨wide, _⟩
      exact ⟨wide inside, mark, member, overlap⟩
  · have overlap : overlaps mark.range (placeholder line).byteRange = true := by
      rw [range, same, byteRange_placeholder, overlaps, decide_eq_true_eq]
      omega
    rw [slotAt_beyond (Nat.le_of_eq same.symm)]
    constructor
    · intro _
      exact ⟨fun _ => Nat.zero_lt_one, fun _ => ⟨mark, member, overlap⟩⟩
    · intro _
      exact ⟨Nat.zero_lt_one, mark, member, overlap⟩
  · rw [slotAt_beyond (Nat.le_of_lt beyond)]
    constructor
    · rintro ⟨_, overlapped⟩
      exact ⟨fun _ => Nat.zero_lt_one, fun _ => overlapped⟩
    · rintro ⟨_, overlapped⟩
      exact ⟨Nat.zero_lt_one, overlapped beyond⟩

end Line

namespace FileRecord

variable {record : FileRecord} {labels : List Label}

/-- The mark of an empty label is one byte long. -/
theorem exists_mark_of_empty (options : Options) (first : Int) {label : Label}
    (given : label ∈ labels) (empty : label.start = label.stop) {offset : Nat}
    (start : label.start = record.startOf (record.lineAt label.start) + offset) :
    ∃ mark ∈ record.marksAt options first labels (record.lineAt label.start),
      mark.range = ((offset : Int), (offset : Int) + 1) := by
  have single : record.isSingle label = true := by
    rw [isSingle, empty]
    exact decide_eq_true rfl
  refine ⟨_, mem_marksAt_iff.mpr ⟨label, given, single, rfl, rfl⟩, ?_⟩
  show ((label.start : Int) - record.startOf (record.lineAt label.start),
    max ((label.stop : Int) - record.startOf (record.lineAt label.start))
      ((label.start : Int) - record.startOf (record.lineAt label.start) + 1)) = _
  rw [Prod.mk.injEq]
  omega

/-- The rows of a shown line are drawn in succession. -/
theorem infix_snippetRows (options : Options) (first : Int) (labels : List Label) {i : Nat}
    {shown : List Nat} (listed : i ∈ Snippet.fillGaps shown) :
    record.lineRows options first labels i <:+: record.snippetRows options first labels shown := by
  rcases List.append_of_mem listed with ⟨front, rest, parts⟩
  rcases @Snippet.weave_append_cons Row (record.lineRows options first labels)
      (fun _ next => [record.gapRow options first labels next]) front i rest with ⟨above, woven, _⟩
  rw [snippetRows, parts, woven]
  exact ⟨above, _, rfl⟩

/-!
# The rows of a line in a view
-/

variable (record)

/-- The text of a line as it is drawn, without what ends it. -/
def trimmedLine (i : Nat) : List Char :=
  Line.trimTrailing (record.lineText i)

/-- What a view shows of an empty label, `offset` bytes after the start of line `i`: the source row
of the line, the caret row below it, and in that row a caret under the place of the label, unless
this has no column or lies behind the end of the line, where no other label reaches. -/
structure MarksEmpty (options : Options) (labels : List Label) (i offset : Nat)
    (steps : List Step) : Prop where
  rows : ∃ padding left cells right carets trailing,
    [.row padding (.source (1 + i) left cells), .row padding (.carets right carets trailing)] <:+:
        steps ∧
      ∀ pencil : Pencil, pencil.text padding (.carets right carets trailing) =
        Event.written (pencil.leftSide padding right) ++
          ' ' :: ((List.range (Line.caretWidth options.tabWidth (record.trimmedLine i)
              (record.marksAt options 1 labels i))).flatMap
            (Line.caretAt pencil.glyphs options.tabWidth (record.trimmedLine i)
              (record.marksAt options 1 labels i)) ++
            Line.trailingChars (record.marksAt options 1 labels i)) ++ ['\n']
  hasCaret_iff : ∀ glyphs : Glyphs,
    Line.HasCaret glyphs options.tabWidth (record.trimmedLine i)
        (record.marksAt options 1 labels i)
        (Line.slotAt options.tabWidth (record.trimmedLine i) offset) ↔
      (offset < Line.byteLength (record.trimmedLine i) →
          0 < (Line.slotAt options.tabWidth (record.trimmedLine i) offset).width) ∧
        (Line.byteLength (record.trimmedLine i) < offset →
          ∃ mark ∈ record.marksAt options 1 labels i,
            overlaps mark.range (Line.placeholder (record.trimmedLine i)).byteRange = true)

variable {record}

theorem marksEmpty {options : Options} {labels : List Label} {label : Label} {offset : Nat}
    {steps : List Step} {padding : Nat} (given : label ∈ labels)
    (empty : label.start = label.stop)
    (start : label.start = record.startOf (record.lineAt label.start) + offset)
    (cut : Utf8.IsCut (record.wholeLine (record.lineAt label.start)) offset)
    (drawn : (record.lineRows options 1 labels (record.lineAt label.start)).map
      (Step.row padding) <:+: steps) :
    record.MarksEmpty options labels (record.lineAt label.start) offset steps := by
  rcases exists_mark_of_empty options 1 given empty start with ⟨mark, member, range⟩
  constructor
  · rcases Line.exists_rows_eq options.tabWidth (1 + record.lineAt label.start)
        (String.ofList (record.lineText (record.lineAt label.start)))
        (record.columns options 1 labels)
        (record.entriesAt options 1 labels (record.lineAt label.start))
        (List.ne_nil_of_mem member) with ⟨below, rows_eq⟩
    rw [lineRows, rows_eq, String.toList_ofList] at drawn
    rw [List.map_cons, List.map_cons] at drawn
    have pair := (List.prefix_append [_, _] _).isInfix.trans drawn
    exact ⟨padding, _, _, _, _, _, pair, fun pencil => Line.text_carets pencil _ _ _ _ _⟩
  · intro glyphs
    rcases Line.exists_eq_trimTrailing_append (record.lineText (record.lineAt label.start)) with
      ⟨trailing, text⟩
    rw [wholeLine, text, List.append_assoc] at cut
    exact Line.hasCaret_slotAt_iff glyphs cut member range

end FileRecord

/-!
# A label behind the end of a line
-/

namespace Returns

def base : FileBase :=
  .ofSources [("letters", "ab\r\n")]

/-- The label stands between the carriage return and the newline. -/
def label : Label :=
  ⟨.primary, .int 0, 3, 3, "here", by decide, by decide⟩

def diagnostic : Diagnostic where
  severity := .error
  code := none
  message := "letters"
  labels := [label]
  notes := []

theorem valid : ∀ label ∈ diagnostic.labels, label.IsValid base := by
  decide +kernel

end Returns

namespace View

/-- Every empty label has its caret row. -/
theorem empty_labels_exact (base : FileBase) (options : Options) (diagnostic : Diagnostic)
    (rich : options.displayStyle = .rich)
    (valid : ∀ label ∈ diagnostic.labels, label.IsValid base) :
    ∀ label ∈ diagnostic.labels, label.start = label.stop →
      ∃ record offset, base.Holds label.file record ∧
        label.start = record.startOf (record.lineAt label.start) + offset ∧
        record.MarksEmpty options (diagnostic.labelsIn label.file) (record.lineAt label.start)
          offset (steps base.lookup options diagnostic) := by
  intro label listed empty
  have planned := @Plan.ofDiagnostic_eq base 1 options diagnostic valid
  rcases Plan.exists_file_of_plan valid planned listed with ⟨file, member, same⟩
  rcases Plan.exists_fileOf valid planned member with ⟨record, known⟩
  rcases valid label listed with ⟨_, held, _⟩
  have number := (known.held.same_iff_of_holds held).mp same
  have labels := Plan.labelsIn_congr valid known.held number
  have given : label ∈ diagnostic.labelsIn file.id := List.mem_filter.mpr ⟨listed, same⟩
  rcases record.exists_cut_on_line (known.fits label given) with ⟨offset, start, cut⟩
  have shown : record.lineAt label.start ∈ Snippet.fillGaps (file.renderedLines.map (·.index)) := by
    rw [Snippet.mem_fillGaps (List.pairwise_map.mpr known.pairwise_renderedLines)]
    exact Or.inl ((known.mem_index_renderedLines _).mpr ⟨label, given, Or.inl rfl⟩)
  have drawn := (record.infix_snippetRows options 1 (diagnostic.labelsIn file.id) shown)
  rw [← known.snippetRows_eq] at drawn
  have inside := (drawn.map (Step.row _)).trans (Rich.infix_steps valid planned member)
  refine ⟨record, offset, known.held.of_whole? number, start, ?_⟩
  rw [← labels, steps, rich]
  exact FileRecord.marksEmpty given empty start cut inside

theorem empty_labels_exact_returns :
    (∀ label ∈ Returns.diagnostic.labels, label.IsValid Returns.base) ∧
      Returns.label ∈ Returns.diagnostic.labels ∧ Returns.label.start = Returns.label.stop ∧
      ∃ record offset, Returns.base.Holds Returns.label.file record ∧
        Returns.label.start = record.startOf (record.lineAt Returns.label.start) + offset ∧
        record.MarksEmpty {} (Returns.diagnostic.labelsIn Returns.label.file)
          (record.lineAt Returns.label.start) offset
          (steps Returns.base.lookup {} Returns.diagnostic) :=
  ⟨Returns.valid, List.mem_singleton.mpr rfl, rfl,
    empty_labels_exact Returns.base {} Returns.diagnostic rfl Returns.valid Returns.label
      (List.mem_singleton.mpr rfl) rfl⟩

/-- The caret row of the label is blank up to its message. -/
theorem empty_label_unmarked_returns :
    (∀ label ∈ Returns.diagnostic.labels, label.IsValid Returns.base) ∧
      Returns.label.start = Returns.label.stop ∧
      ((steps Returns.base.lookup {} Returns.diagnostic).filterMap Step.row?)[4]?.map
          (Line.Wide.pencil.text 1) =
        some (Event.written (Line.Wide.pencil.leftSide 1 []) ++
          ' ' :: [' ', ' ', ' '] ++ " here\n".toList) := by
  refine ⟨Returns.valid, rfl, ?_⟩
  decide +kernel

end View
end SourceReport

import SourceReport.Proofs.RedrawnViews
import SourceReport.Proofs.Updates

/-!
# Moved code

Lines may be put above the code of a file. If the labels move down with the code, and the numbers of
the lines are lowered by as many lines, nothing changes in the rich view.
-/

namespace SourceReport

/-!
# Text above a text
-/

namespace Lines

/-- A text of whole lines: it is empty, or a newline ends it. -/
def IsWhole (text : List Char) : Prop :=
  text = [] ∨ text.getLast? = some '\n'

instance (text : List Char) : Decidable (IsWhole text) :=
  inferInstanceAs (Decidable (_ ∨ _))

/-- The pieces of a text stay the same below whole lines. -/
theorem IsWhole.exists_splitLines {above : List Char} (whole : IsWhole above) :
    ∃ lines, lines.length = above.count '\n' ∧
      ∀ text, splitLines (above ++ text) = lines ++ splitLines text := by
  rcases whole with rfl | ended
  · exact ⟨[], rfl, fun _ => rfl⟩
  · rcases List.getLast?_eq_some_iff.mp ended with ⟨front, rfl⟩
    refine ⟨splitLines front, ?_, ?_⟩
    · rw [splitLines, length_pieces, List.count_append, List.count_singleton_self]
    · intro text
      rw [List.append_assoc, List.singleton_append]
      exact pieces_append '\n' front text

theorem addEnds_append (lines : List (List Char)) {pieces : List (List Char)} (h : pieces ≠ []) :
    addEnds (lines ++ pieces) = lines.map (· ++ ['\n']) ++ addEnds pieces := by
  induction lines with
  | nil => rfl
  | cons line lines ih =>
      rw [List.cons_append, addEnds_cons (List.append_ne_nil_of_right_ne_nil lines h), ih]
      rfl

/-- The lines of a text start further down below whole lines, by the length of these. -/
theorem IsWhole.startOf_append {above : List Char} (whole : IsWhole above) (text : List Char)
    (i : Nat) :
    startOf (above ++ text) (i + above.count '\n') = startOf text i + (Utf8.encode above).length := by
  rcases whole.exists_splitLines with ⟨lines, length, split⟩
  have ends : withEnds (above ++ text) = lines.map (· ++ ['\n']) ++ withEnds text := by
    rw [withEnds, split]
    exact addEnds_append lines (pieces_ne_nil '\n' text)
  have front : (lines.map (· ++ ['\n'])).flatten = above := by
    have flat := congrArg List.flatten ends
    rw [List.flatten_append, flatten_withEnds, flatten_withEnds] at flat
    exact (List.append_cancel_right flat).symm
  have reached : i + above.count '\n' = (lines.map (· ++ ['\n'])).length + i := by
    rw [List.length_map, length]
    omega
  rw [startOf, ends, reached, List.take_length_add_append, List.flatten_append, front,
    Utf8.encode_append, List.length_append, startOf]
  omega

end Lines

/-- How far whole lines shift what stands below them. -/
def Shift.below (above : String) : Shift where
  lines := above.toList.count '\n'
  bytes := (Utf8.encode above.toList).length

namespace FileRecord

variable (record : FileRecord) {above : String}

theorem toList_source_below (above : String) :
    (record.withSource (above ++ record.source)).source.toList =
      above.toList ++ record.source.toList :=
  String.toList_append

theorem aligned_below (whole : Lines.IsWhole above.toList) :
    record.Aligned (record.withSource (above ++ record.source)) (Shift.below above) where
  name_eq := rfl
  lineCount_eq := by
    rw [lineCount, toList_source_below, List.count_append, lineCount, Nat.add_assoc, Nat.add_comm]
    rfl
  startOf_eq i _ := by
    rw [startOf, toList_source_below]
    exact whole.startOf_append record.source.toList i

theorem lineText_below (whole : Lines.IsWhole above.toList) (i : Nat) :
    (record.withSource (above ++ record.source)).lineText (i + (Shift.below above).lines) =
      record.lineText i := by
  rcases whole.exists_splitLines with ⟨lines, length, split⟩
  have reached : i + (Shift.below above).lines = lines.length + i := by
    rw [length]
    exact Nat.add_comm i _
  rw [lineText, toList_source_below, split, reached, List.getD_eq_getElem?_getD,
    List.getElem?_append_right (Nat.le_add_right _ _), Nat.add_sub_cancel_left,
    ← List.getD_eq_getElem?_getD, lineText]

end FileRecord

/-!
# Letters further down

The label of the sixth letter has enough lines above it.
-/

namespace Letters

def record : FileRecord :=
  .of "letters" "a\n\tb\nc\nd\ne\nf\ng\nh\ni\nj\n"

def single : Diagnostic :=
  { diagnostic with labels := [one] }

theorem holds_record : base.Holds (.int 0) record :=
  ⟨0, rfl, rfl⟩

theorem valid_single : ∀ label ∈ single.labels, label.IsValid base := by
  decide +kernel

theorem room_single : ∀ label ∈ single.labels, 3 ≤ record.lineAt label.start := by
  decide +kernel

end Letters

/-!
# Reports
-/

namespace View

/-- Whole lines put above the code of a file move its labels down, and change nothing else if the lines
are numbered from that much less on. -/
theorem moved_code_drawn_alike (base : FileBase) (id : Scalar) (record : FileRecord)
    (above : String) (first : Int) (options : Options) (diagnostic : Diagnostic)
    (rich : options.displayStyle = .rich) (whole : Lines.IsWhole above.toList)
    (held : base.Holds id record)
    (valid : ∀ label ∈ diagnostic.labels, label.IsValid base)
    (inFile : ∀ label ∈ diagnostic.labels, id.same label.file = true)
    (room : ∀ label ∈ diagnostic.labels, options.before ≤ record.lineAt label.start) :
    ∃ moved, base.update id (above ++ record.source) = .ok moved ∧
      (∀ label ∈ ((Shift.below above).diagnostic diagnostic).labels, label.IsValid moved) ∧
      steps (moved.numberedFrom (first - (Shift.below above).lines)) options
          ((Shift.below above).diagnostic diagnostic) =
        steps (base.numberedFrom first) options diagnostic ∧
      ∀ machine theme report,
        Overflow.add (moved.numberedFrom (first - (Shift.below above).lines)) options theme report
            ((Shift.below above).diagnostic diagnostic) machine =
          Overflow.add (base.numberedFrom first) options theme report diagnostic machine := by
  rcases held.exists_update (above ++ record.source) with ⟨moved, updated, known⟩
  have redrawn : diagnostic.Redrawn base moved (Shift.below above) options := by
    intro label listed
    rcases valid label listed with ⟨_, again, fits⟩
    have same := (held.same_iff again.isSome_whole?).mp (inFile label listed)
    have here := held.of_whole? same
    rw [again.unique here] at fits
    refine ⟨record, _, here, known.of_whole? same, fits, record.aligned_below whole, ?_, ?_⟩
    · intro i _
      exact record.lineText_below whole i
    · intro other given
      exact Or.inr (room other (List.mem_filter.mp given).1)
  have numbers : first - (Shift.below above).lines + (Shift.below above).lines = first :=
    Int.sub_add_cancel first _
  refine ⟨moved, updated, redrawn.valid_labels, ?_, redrawn.add_eq rich numbers⟩
  rw [steps, steps, rich]
  exact redrawn.steps_eq numbers

theorem moved_code_drawn_alike_letters :
    Lines.IsWhole "y\n\nz\n".toList ∧ Letters.base.Holds (.int 0) Letters.record ∧
      (∀ label ∈ Letters.single.labels, label.IsValid Letters.base) ∧
      (∀ label ∈ Letters.single.labels, Scalar.same (.int 0) label.file = true) ∧
      (∀ label ∈ Letters.single.labels, 3 ≤ Letters.record.lineAt label.start) ∧
      ∃ moved, Letters.base.update (.int 0) ("y\n\nz\n" ++ Letters.record.source) = .ok moved ∧
        steps (moved.numberedFrom (1 - 3)) { before := 3 }
            ((Shift.below "y\n\nz\n").diagnostic Letters.single) =
          steps Letters.base.lookup { before := 3 } Letters.single := by
  have whole : Lines.IsWhole "y\n\nz\n".toList := by decide +kernel
  have inFile : ∀ label ∈ Letters.single.labels, Scalar.same (.int 0) label.file = true := by
    decide +kernel
  rcases moved_code_drawn_alike Letters.base (.int 0) Letters.record "y\n\nz\n" 1 { before := 3 }
    Letters.single rfl whole Letters.holds_record Letters.valid_single inFile
    Letters.room_single with ⟨moved, updated, _, same, _⟩
  exact ⟨whole, Letters.holds_record, Letters.valid_single, inFile, Letters.room_single, moved,
    updated, same⟩

end View
end SourceReport

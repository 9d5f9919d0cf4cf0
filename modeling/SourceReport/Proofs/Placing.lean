import SourceReport.Plan
import SourceReport.Proofs.Files

/-!
# Placing valid labels

A valid label is placed without a failure, and its placement is a matter of line numbers alone: the
lines of its two ends, the lines between them, and as many lines around them as the options ask for
and the file has.
-/

namespace SourceReport

namespace Label

/-!
# Valid labels

A valid label names a known file, ends within its source, and begins and ends between two
characters.
-/

def FitsIn (label : Label) (record : FileRecord) : Prop :=
  label.stop ≤ record.encoded.length ∧ record.IsCut label.start ∧ record.IsCut label.stop

def IsValid (label : Label) (base : FileBase) : Prop :=
  ∃ record, base.Holds label.file record ∧ label.FitsIn record

variable {base : FileBase} {label : Label} {record : FileRecord}

theorem isValid_iff_fitsIn (held : base.Holds label.file record) :
    label.IsValid base ↔ label.FitsIn record := by
  constructor
  · rintro ⟨next, again, fits⟩
    rw [held.unique again]
    exact fits
  · intro fits
    exact ⟨record, held, fits⟩

theorem FitsIn.checkRange_eq (fits : label.FitsIn record) :
    Slice.checkRange record.encoded label.start label.stop = .ok () := by
  rw [record.encoded_eq]
  exact Slice.checkRange_eq_ok fits.2.1 fits.2.2

instance (label : Label) (record : FileRecord) : Decidable (label.FitsIn record) :=
  inferInstanceAs (Decidable (_ ∧ _ ∧ _))

instance (label : Label) (base : FileBase) : Decidable (label.IsValid base) :=
  match found : base.get label.file with
  | .ok _ =>
      decidable_of_iff _ (isValid_iff_fitsIn (FileBase.get_eq_ok_iff.mp found)).symm
  | .error _ =>
      isFalse fun ⟨_, held, _⟩ => by
        rw [FileBase.get_eq_ok_iff.mpr held] at found
        cases found

end Label

/-!
# A file of letters

Each line holds a letter. One label covers them all, and the other one covers the sixth.
-/

namespace Letters

def base : FileBase :=
  .ofSources [("letters", "a\n\tb\nc\nd\ne\nf\ng\nh\ni\nj\n")]

def all : Label :=
  ⟨.primary, .int 0, 0, 20, "all letters", by decide, by decide⟩

def one : Label :=
  ⟨.secondary, .int 0, 11, 12, "one letter", by decide, by decide⟩

def diagnostic : Diagnostic where
  severity := .error
  code := none
  message := "letters"
  labels := [all, one]
  notes := []

theorem valid : ∀ label ∈ diagnostic.labels, label.IsValid base := by
  decide +kernel

end Letters

namespace FileRecord

variable (record : FileRecord) (options : Options) (first : Int)

def span (i : Nat) : LineSpan :=
  ⟨i, (record.startOf i, record.startOf (i + 1))⟩

/-- The placement of a label that fits into the record. -/
def placement (label : Label) : Placement :=
  let start := record.lineAt label.start
  let stop := record.lineAt label.stop
  { label
    fileName := record.name
    location := record.locationAt first label.start
    first := record.span start
    last := record.span stop
    middle := (List.range' (start + 1) (stop - (start + 1))).map record.span
    before :=
      ((List.range' (start - options.before) (min options.before start)).map record.span).reverse
    after :=
      (List.range' (stop + 1) (min options.after (record.lineCount - 1 - stop))).map record.span }

variable {record options first}

@[simp]
theorem first_placement (label : Label) :
    (record.placement options first label).first.index = record.lineAt label.start := rfl

@[simp]
theorem last_placement (label : Label) :
    (record.placement options first label).last.index = record.lineAt label.stop := rfl

theorem map_index_span (lines : List Nat) :
    (lines.map record.span).map (·.index) = lines := by
  rw [List.map_map]
  exact List.map_id lines

end FileRecord

namespace Placement

variable {base : FileBase} {first : Int} {id : Scalar} {record : FileRecord}

/-!
# Lines around a label
-/

theorem contextBefore_eq (held : base.Holds id record) (count line : Nat)
    (h : line ≤ record.lineCount) :
    contextBefore (base.numberedFrom first) id count line =
      ((List.range' (line - count) (min count line)).map record.span).reverse := by
  induction count generalizing line with
  | zero => simp [contextBefore]
  | succ count ih =>
      cases line with
      | zero => simp [contextBefore]
      | succ line =>
          have last : line - count + min count line = line := by omega
          have found := record.lineRange_of_lt (i := line) (by omega)
          rw [contextBefore, held.lineRange_eq, found, Nat.add_sub_add_right,
            Nat.add_min_add_right, List.range'_1_concat, last, List.map_append,
            List.reverse_append, ← ih line (by omega)]
          rfl

theorem contextAfter_eq (held : base.Holds id record) (count line : Nat)
    (h : line < record.lineCount) :
    contextAfter (base.numberedFrom first) id count line =
      (List.range' (line + 1) (min count (record.lineCount - 1 - line))).map record.span := by
  induction count generalizing line with
  | zero => simp [contextAfter]
  | succ count ih =>
      rw [contextAfter, held.lineRange_eq]
      by_cases next : line + 1 < record.lineCount
      · have length : min (count + 1) (record.lineCount - 1 - line) =
            min count (record.lineCount - 1 - (line + 1)) + 1 := by omega
        rw [record.lineRange_of_lt next, length, List.range'_succ, List.map_cons, ← ih _ next]
        rfl
      · have length : record.lineCount - 1 - line = 0 := by omega
        rcases record.lineRange_of_le (Nat.le_of_not_lt next) with ⟨failure, failed⟩
        rw [failed, length, Nat.min_zero]
        rfl

theorem mapM_eq_ok {α β : Type} {f : α → Except Failure β} {g : α → β} {list : List α}
    (h : ∀ x ∈ list, f x = .ok (g x)) : list.mapM f = .ok (list.map g) := by
  induction list with
  | nil => rfl
  | cons x rest ih =>
      rw [List.forall_mem_cons] at h
      rw [List.mapM_cons, h.1, ih h.2]
      rfl

theorem linesBetween_eq (held : base.Holds id record) {start stop : Nat}
    (h : stop < record.lineCount) :
    linesBetween (base.numberedFrom first) id start stop =
      .ok ((List.range' (start + 1) (stop - (start + 1))).map record.span) := by
  apply mapM_eq_ok
  intro line member
  rw [List.mem_range'_1] at member
  rw [held.lineRange_eq, record.lineRange_of_lt (by omega)]
  rfl

/-!
# One label
-/

/-- A valid label is placed, whichever name of its file was mentioned first. -/
theorem ofLabel_eq (options : Options) {mention : Scalar} {label : Label}
    (mentioned : base.Holds mention record) (held : base.Holds label.file record)
    (fits : label.FitsIn record) :
    ofLabel (base.numberedFrom first) options mention label =
      .ok (record.placement options first label) := by
  have startLine := record.lineAt_lt_lineCount label.start
  have stopLine := record.lineAt_lt_lineCount label.stop
  rw [ofLabel, mentioned.encoded_eq]
  simp only [bind, Except.bind, fits.checkRange_eq, held.lineIndex_eq, held.lineRange_eq,
    record.lineRange_of_lt startLine, record.lineRange_of_lt stopLine, held.name_eq,
    held.location_eq, linesBetween_eq held stopLine, pure, Except.pure]
  rw [contextBefore_eq held _ _ (Nat.le_of_lt startLine), contextAfter_eq held _ _ stopLine]
  rfl

end Placement
end SourceReport

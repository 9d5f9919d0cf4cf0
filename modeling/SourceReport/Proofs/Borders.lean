import SourceReport.Proofs.LineNumbers

/-!
# The border of a report

The padding of a report is the width of the widest number of a line on which a label ends. The
border stands in the column after it in every row, unless the number of a context line below a label
is wider still: that line, and it alone, pushes its border to the right.
-/

namespace SourceReport

/-!
# The column of a border
-/

/-- The number of characters that are written before a border. -/
def Event.borderColumn? : List Event → Option Nat
  | [] => none
  | .write piece :: rest => (borderColumn? rest).map (piece.string.length + ·)
  | .set role _ :: rest => if role = .sourceBorder then some 0 else borderColumn? rest
  | .reset :: rest => borderColumn? rest

namespace Row

/-- Rows with the border of a snippet on their left side. -/
def isBordered : Row → Bool
  | .header _ _ _ => false
  | .blank => false
  | .note _ _ => false
  | .start _ => true
  | .source _ _ _ => true
  | .carets _ _ _ => true
  | .pointers _ _ => true
  | .hanging _ _ _ _ => true
  | .bracket _ _ _ _ _ => true
  | .empty _ => true
  | .gap _ => true

/-- The characters of the line number that a row shows. -/
def numberWidth (row : Row) : Nat :=
  row.number?.elim 0 Plan.countDigits

end Row

namespace Pencil

open Event

theorem borderColumn?_outerGutter (padding : Nat) (rest : List Event) :
    borderColumn? (outerGutter padding ++ rest) =
      (borderColumn? rest).map (padding + 1 + ·) := by
  rw [outerGutter]
  split
  · have length : (spaces padding).length = padding := by
      rw [← String.length_toList, toList_spaces, List.length_replicate]
    show ((borderColumn? rest).map (1 + ·)).map ((spaces padding).length + ·) = _
    rw [Option.map_map, length]
    congr 1
    funext column
    exact (Nat.add_assoc padding 1 column).symm
  · rename_i zero
    have none : padding = 0 := by omega
    rw [none]
    rfl

theorem borderColumn?_leftSide (pencil : Pencil) (padding : Nat) (cells : List GutterCell)
    (rest : List Event) :
    borderColumn? (pencil.leftSide padding cells ++ rest) = some (padding + 1) := by
  rw [leftSide, List.append_assoc, List.append_assoc, borderColumn?_outerGutter]
  rfl

theorem borderColumn?_sourceSide (pencil : Pencil) (padding : Nat) (number : Int)
    (cells : List GutterCell) (rest : List Event) :
    borderColumn? (pencil.sourceSide padding number cells ++ rest) =
      some (max padding (Plan.countDigits number) + 1) := by
  have length : (spaces (padding - (toString number).length) ++ toString number).length =
      max padding (Plan.countDigits number) := by
    rw [String.length_append, ← String.length_toList, toList_spaces, List.length_replicate,
      Plan.countDigits]
    omega
  rw [← length]
  rfl

/-- A border follows the padding and a blank, or a line number wider than the padding. -/
theorem borderColumn?_row (pencil : Pencil) (padding : Nat) {row : Row}
    (bordered : row.isBordered = true) :
    borderColumn? (pencil.row padding row) = some (max padding row.numberWidth + 1) := by
  have unnumbered : padding = max padding 0 := (Nat.max_zero padding).symm
  rw [Pencil.row]
  cases row with
  | header locus code message => cases bordered
  | blank => cases bordered
  | note isFirst text => cases bordered
  | start locus =>
      simp only [content, List.append_assoc, borderColumn?_outerGutter, Row.numberWidth,
        Row.number?, Option.elim_none, ← unnumbered]
      rfl
  | source number cells chars =>
      simp only [content, List.append_assoc, borderColumn?_sourceSide]
      rfl
  | gap cells =>
      simp only [content, List.append_assoc, borderColumn?_outerGutter, Row.numberWidth,
        Row.number?, Option.elim_none, ← unnumbered]
      rfl
  | carets cells carets trailing =>
      simp only [content, List.append_assoc, borderColumn?_leftSide, Row.numberWidth,
        Row.number?, Option.elim_none, ← unnumbered]
  | pointers cells pointers =>
      simp only [content, List.append_assoc, borderColumn?_leftSide, Row.numberWidth,
        Row.number?, Option.elim_none, ← unnumbered]
  | hanging cells pointers style message =>
      simp only [content, List.append_assoc, borderColumn?_leftSide, Row.numberWidth,
        Row.number?, Option.elim_none, ← unnumbered]
  | bracket cells stop style width message =>
      simp only [content, List.append_assoc, borderColumn?_leftSide, Row.numberWidth,
        Row.number?, Option.elim_none, ← unnumbered]
  | empty cells =>
      simp only [content, borderColumn?_leftSide, Row.numberWidth, Row.number?,
        Option.elim_none, ← unnumbered]

end Pencil

namespace View

variable {base : FileBase} {options : Options} {diagnostic : Diagnostic}

/-!
# The padding of all rows
-/

theorem Rich.padding_of_mem_fileSteps {first : Int} {file : PlannedFile} {record : FileRecord}
    (h : Plan.FileOf base options first diagnostic file record) {padding given : Nat} {row : Row}
    {isClosed : Bool}
    (member : Step.row given row ∈
      fileSteps (base.numberedFrom first) options padding file isClosed) : given = padding := by
  rw [h.fileSteps_eq] at member
  rcases List.mem_append.mp member with member | closing
  · rcases List.mem_append.mp member with opening | member
    · simp only [emptyRow, List.mem_cons, List.not_mem_nil, or_false, Step.row.injEq] at opening
      rcases opening with ⟨same, _⟩ | ⟨same, _⟩
      · exact same
      · exact same
    · rcases List.mem_cons.mp member with this | drawn
      · cases this
      · rcases List.mem_map.mp drawn with ⟨_, _, same⟩
        cases same
        rfl
  · split at closing
    · cases List.mem_singleton.mp closing
      rfl
    · cases closing

theorem Rich.padding_of_mem_filesSteps {first : Int} {files : List PlannedFile}
    (planned : ∀ file ∈ files, ∃ record, Plan.FileOf base options first diagnostic file record)
    {padding given : Nat} {row : Row} {hasNotes : Bool}
    (member : Step.row given row ∈
      filesSteps (base.numberedFrom first) options padding hasNotes files) : given = padding := by
  induction files with
  | nil => cases member
  | cons file rest ih =>
      rw [List.forall_mem_cons] at planned
      rcases planned.1 with ⟨record, h⟩
      rcases List.mem_append.mp member with this | later
      · exact padding_of_mem_fileSteps h this
      · exact ih planned.2 later

/-- All rows of a report have the same padding. -/
theorem Rich.padding_of_mem_steps {first : Int}
    (valid : ∀ label ∈ diagnostic.labels, label.IsValid base) {plan : Plan}
    (planned : Plan.ofDiagnostic (base.numberedFrom first) options diagnostic = .ok plan)
    {given : Nat} {row : Row}
    (member : Step.row given row ∈ steps (base.numberedFrom first) options diagnostic) :
    given = plan.padding := by
  rw [steps, planned] at member
  simp only [planSteps, List.cons_append, List.mem_cons, List.mem_append, List.not_mem_nil,
    or_false, Step.row.injEq, reduceCtorEq, false_or] at member
  rcases member with ⟨same, _⟩ | (files | notes) | ⟨same, _⟩
  · exact same
  · exact padding_of_mem_filesSteps (fun _ => Plan.exists_fileOf valid planned) files
  · rcases List.mem_flatMap.mp notes with ⟨_, _, drawn⟩
    rcases List.mem_map.mp drawn with ⟨_, _, this⟩
    cases this
    rfl
  · exact same

end View

/-!
# A label before a longer number
-/

namespace Letters

/-- A label on the ninth letter. -/
def ninth : Diagnostic where
  severity := .error
  code := none
  message := "letters"
  labels := [⟨.primary, .int 0, 17, 18, "", by decide, by decide⟩]
  notes := []

theorem ninth_valid : ∀ label ∈ ninth.labels, label.IsValid base := by
  decide +kernel

end Letters

namespace View

/-!
# The border of a view
-/

theorem border_column_exact (base : FileBase) (options : Options) (diagnostic : Diagnostic)
    (rich : options.displayStyle = .rich)
    (valid : ∀ label ∈ diagnostic.labels, label.IsValid base) :
    ∃ plan, Plan.ofDiagnostic base.lookup options diagnostic = .ok plan ∧
      (∀ bound, plan.padding ≤ bound ↔
        ∀ label ∈ diagnostic.labels, ∀ record, base.Holds label.file record →
          Plan.countDigits (1 + record.lineAt label.stop : Nat) ≤ bound) ∧
      (∀ padding row, Step.row padding row ∈ steps base.lookup options diagnostic →
        row.isBordered = true → ∀ pencil : Pencil,
          Event.borderColumn? (pencil.row padding row) =
            some (max plan.padding row.numberWidth + 1)) ∧
      ((∀ number ∈ (steps base.lookup options diagnostic).filterMap Step.number?,
          Plan.countDigits number ≤ plan.padding) ↔
        ∀ label ∈ diagnostic.labels, ∀ record, base.Holds label.file record →
          Plan.countDigits (1 + record.contextEnd options label : Nat) ≤ plan.padding) := by
  have planned := @Plan.ofDiagnostic_eq base 1 options diagnostic valid
  refine ⟨_, planned, ?_, ?_, ?_⟩
  · exact Plan.gutterWidth_le_iff valid
  · intro padding row member bordered pencil
    rw [steps, rich] at member
    have same := Rich.padding_of_mem_steps valid planned member
    rw [pencil.borderColumn?_row padding bordered, same]
  · exact numbers_fit_iff rich valid _

theorem border_column_exact_letters :
    (∀ label ∈ Letters.ninth.labels, label.IsValid Letters.base) ∧
      ∃ plan, Plan.ofDiagnostic Letters.base.lookup { after := 1 } Letters.ninth = .ok plan ∧
        ∀ padding row,
          Step.row padding row ∈ steps Letters.base.lookup { after := 1 } Letters.ninth →
            row.isBordered = true → ∀ pencil : Pencil,
              Event.borderColumn? (pencil.row padding row) =
                some (max plan.padding row.numberWidth + 1) := by
  rcases border_column_exact Letters.base { after := 1 } Letters.ninth rfl Letters.ninth_valid with
    ⟨plan, planned, _, columns, _⟩
  exact ⟨Letters.ninth_valid, plan, planned, columns⟩

/-- The number of the line after the ninth one has two digits, which the padding has no room for. -/
theorem border_column_shifted_letters :
    (∀ label ∈ Letters.ninth.labels, label.IsValid Letters.base) ∧
      ∃ plan, Plan.ofDiagnostic Letters.base.lookup { after := 1 } Letters.ninth = .ok plan ∧
        ¬ ∀ number ∈
            (steps Letters.base.lookup { after := 1 } Letters.ninth).filterMap Step.number?,
          Plan.countDigits number ≤ plan.padding := by
  refine ⟨Letters.ninth_valid, _, @Plan.ofDiagnostic_eq Letters.base 1 _ _ Letters.ninth_valid, ?_⟩
  decide +kernel

end View
end SourceReport

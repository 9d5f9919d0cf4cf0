import SourceReport.Proofs.SourceRows

/-!
# Line numbers

A snippet shows the numbers of the lines that it draws, up to the last context line of some label.
The padding of a report is as wide as the number of any line on which a label ends.
-/

namespace SourceReport

/-!
# Widths of numbers
-/

namespace Plan

theorem countDigits_natCast (n : Nat) : countDigits n = n.repr.length := rfl

theorem countDigits_mono {a b : Nat} (h : a ≤ b) : countDigits a ≤ countDigits b := by
  rw [countDigits_natCast, countDigits_natCast]
  have positive := Nat.length_repr_pos (n := b)
  rw [Nat.length_repr_le_iff positive]
  exact Nat.lt_of_le_of_lt h ((Nat.length_repr_le_iff positive).mp (Nat.le_refl _))

theorem foldl_max_le_iff (widths : List Nat) (start bound : Nat) :
    widths.foldl max start ≤ bound ↔ start ≤ bound ∧ ∀ width ∈ widths, width ≤ bound := by
  induction widths generalizing start with
  | nil => simp
  | cons width rest ih =>
      rw [List.foldl_cons, ih, Nat.max_le, List.forall_mem_cons, and_assoc]

variable {base : FileBase} {options : Options} {diagnostic : Diagnostic}

theorem lineNumber_lookup (base : FileBase) (i : Nat) :
    base.lookup.lineNumber i = (1 + i : Nat) :=
  (Int.natCast_add 1 i).symm

/-- The padding is the width of the widest number of a line on which a label ends. -/
theorem gutterWidth_le_iff (valid : ∀ label ∈ diagnostic.labels, label.IsValid base)
    (bound : Nat) :
    gutterWidth base.lookup (diagnostic.labels.map (base.placed options 1)) ≤ bound ↔
      ∀ label ∈ diagnostic.labels, ∀ record, base.Holds label.file record →
        countDigits (1 + record.lineAt label.stop : Nat) ≤ bound := by
  rw [gutterWidth, foldl_max_le_iff]
  constructor
  · intro bounded label listed record held
    have covered := bounded.2
    apply covered
    rw [List.mem_flatMap]
    refine ⟨base.placed options 1 label, List.mem_map_of_mem listed, ?_⟩
    rw [held.placed_eq, List.mem_map]
    refine ⟨record.span (record.lineAt label.stop), ?_, ?_⟩
    · exact List.mem_cons_of_mem _ List.mem_cons_self
    · exact congrArg countDigits (lineNumber_lookup base (record.lineAt label.stop))
  · intro ends
    refine ⟨Nat.zero_le bound, ?_⟩
    intro width member
    rcases List.mem_flatMap.mp member with ⟨placement, placed, listed⟩
    rcases List.mem_map.mp placed with ⟨label, given, rfl⟩
    rcases valid label given with ⟨record, held, _⟩
    rw [held.placed_eq] at listed
    rcases List.mem_map.mp listed with ⟨line, covers, rfl⟩
    rw [lineNumber_lookup]
    have order := record.lineAt_start_le_stop label
    -- Among the lines that a label covers its last line has the widest number.
    have above : line.index ≤ record.lineAt label.stop := by
      rcases List.mem_cons.mp covers with this | covers
      · rw [this]
        exact order
      · rcases List.mem_cons.mp covers with this | between
        · rw [this]
          exact Nat.le_refl _
        · have inside := FileRecord.mem_index_middle.mp (List.mem_map_of_mem between)
          exact Nat.le_of_lt inside.2
    have narrower : countDigits (1 + line.index : Nat) ≤
        countDigits (1 + record.lineAt label.stop : Nat) := countDigits_mono (by omega)
    exact Nat.le_trans narrower (ends label given record held)

end Plan

namespace Row

/-- The line number that a row shows. -/
def number? : Row → Option Int
  | .source number _ _ => some number
  | .header _ _ _ => none
  | .blank => none
  | .note _ _ => none
  | .start _ => none
  | .carets _ _ _ => none
  | .pointers _ _ => none
  | .hanging _ _ _ _ => none
  | .bracket _ _ _ _ _ => none
  | .empty _ => none
  | .gap _ => none

end Row

/-!
# The numbers of a snippet
-/

theorem Row.bind_number?_source? (row : Row) : row.source?.bind number? = row.number? := by
  cases row <;> rfl

/-- The line number that a step shows. -/
def Step.number? : Step → Option Int
  | .trace _ => none
  | .row _ drawn => drawn.number?
  | .fail _ => none

theorem Step.bind_number?_source? (step : Step) :
    step.source?.bind Row.number? = step.number? := by
  cases step with
  | trace written => rfl
  | row padding row => exact row.bind_number?_source?
  | fail failure => rfl

/-- The last of the context lines below a label. -/
def FileRecord.contextEnd (record : FileRecord) (options : Options) (label : Label) : Nat :=
  min (record.lineAt label.stop + options.after) (record.lineCount - 1)

namespace Plan

variable {base : FileBase} {options : Options} {first : Int} {diagnostic : Diagnostic}
  {file : PlannedFile} {record : FileRecord}

/-- The last context line below a label is shown. -/
theorem FileOf.contextEnd_mem (h : FileOf base options first diagnostic file record)
    {label : Label} (given : label ∈ diagnostic.labelsIn file.id) :
    record.contextEnd options label ∈ file.renderedLines.map (·.index) := by
  have inside := record.lineAt_lt_lineCount label.stop
  rw [h.mem_index_renderedLines]
  refine ⟨label, given, ?_⟩
  rw [FileRecord.Shows, FileRecord.contextEnd]
  omega

/-- No line below the context lines of all labels is drawn. -/
theorem FileOf.exists_le_contextEnd (h : FileOf base options first diagnostic file record) {i : Nat}
    (drawn : i ∈ file.drawn) :
    ∃ label ∈ diagnostic.labelsIn file.id, i ≤ record.contextEnd options label := by
  have below : ∃ j ∈ file.renderedLines.map (·.index), i ≤ j := by
    rcases (h.mem_drawn_iff i).mp drawn with listed | ⟨j, _, this, above⟩
    · exact ⟨i, listed, Nat.le_refl i⟩
    · exact ⟨j + 2, above, by omega⟩
  rcases below with ⟨j, shown, order⟩
  rcases (h.mem_index_renderedLines j).mp shown with ⟨label, given, shows⟩
  have touches := shows.touches
  rw [FileRecord.Touches] at touches
  refine ⟨label, given, ?_⟩
  rw [FileRecord.contextEnd]
  omega

end Plan

namespace View

variable {base : FileBase} {options : Options} {diagnostic : Diagnostic}

/-- The numbers of a view are those of the lines that it draws. -/
theorem filterMap_number?_steps (first : Int) (rich : options.displayStyle = .rich)
    (valid : ∀ label ∈ diagnostic.labels, label.IsValid base) :
    ∃ plan, Plan.ofDiagnostic (base.numberedFrom first) options diagnostic = .ok plan ∧
      (steps (base.numberedFrom first) options diagnostic).filterMap Step.number? =
        plan.files.flatMap fun file => file.drawn.map fun (i : Nat) => first + (i : Int) := by
  rcases filterMap_source?_steps first rich valid with ⟨plan, planned, drawn⟩
  refine ⟨plan, planned, ?_⟩
  have numbers := congrArg (List.filterMap Row.number?) drawn
  rw [List.filterMap_filterMap, List.filterMap_flatMap] at numbers
  simp only [Step.bind_number?_source?, List.filterMap_map] at numbers
  rw [numbers]
  apply List.flatMap_congr
  intro file _
  exact congrFun (List.filterMap_eq_map (f := fun (i : Nat) => first + (i : Int))) file.drawn

/-- All line numbers fit into a width if those of the context lines below the labels do. -/
theorem numbers_fit_iff (rich : options.displayStyle = .rich)
    (valid : ∀ label ∈ diagnostic.labels, label.IsValid base) (bound : Nat) :
    (∀ number ∈ (steps base.lookup options diagnostic).filterMap Step.number?,
        Plan.countDigits number ≤ bound) ↔
      ∀ label ∈ diagnostic.labels, ∀ record, base.Holds label.file record →
        Plan.countDigits (1 + record.contextEnd options label : Nat) ≤ bound := by
  rcases filterMap_number?_steps 1 rich valid with ⟨plan, planned, numbers⟩
  rw [FileBase.numberedFrom_one] at numbers
  rw [numbers]
  constructor
  · intro fits label listed record held
    rcases Plan.exists_file_of_plan valid planned listed with ⟨file, member, same⟩
    rcases Plan.exists_fileOf valid planned member with ⟨found, known⟩
    have again := known.held.of_same held.isSome_whole? same
    rw [again.unique held] at known
    have given : label ∈ diagnostic.labelsIn file.id := List.mem_filter.mpr ⟨listed, same⟩
    have drawn := (known.mem_drawn_iff _).mpr (Or.inl (known.contextEnd_mem given))
    rw [Int.natCast_add]
    apply fits
    exact List.mem_flatMap.mpr ⟨file, member, List.mem_map_of_mem drawn⟩
  · intro fits number listed
    rcases List.mem_flatMap.mp listed with ⟨file, member, listed⟩
    rcases List.mem_map.mp listed with ⟨i, drawn, rfl⟩
    rcases Plan.exists_fileOf valid planned member with ⟨record, known⟩
    rcases known.exists_le_contextEnd drawn with ⟨label, given, order⟩
    rcases List.mem_filter.mp given with ⟨named, same⟩
    rcases valid label named with ⟨found, held, _⟩
    have again := known.held.of_same held.isSome_whole? same
    have narrower : Plan.countDigits (1 + i : Nat) ≤
        Plan.countDigits (1 + record.contextEnd options label : Nat) :=
      Plan.countDigits_mono (by omega)
    rw [Int.natCast_add] at narrower
    exact Nat.le_trans narrower (fits label named record again)

end View
end SourceReport

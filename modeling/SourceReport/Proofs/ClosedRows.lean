import SourceReport.Proofs.Courses
import SourceReport.Proofs.Roles

/-!
# Closed rows

The events of a row set roles in the styles of the theme, and they leave no role set at its end.
Only a row that ends early may break off within a role, and it ends the report.
-/

namespace SourceReport
namespace Pencil

open Event

variable {pencil : Pencil}

/-!
# Characters under labels
-/

theorem passes_sourceCells (before : Bool) (cells : List SourceCell) :
    pencil.Passes (pencil.cellRole before) (pencil.sourceCells before cells) none := by
  induction cells generalizing before with
  | nil =>
      cases before with
      | false => exact Passes.nil none
      | true => exact Passes.reset _
  | cons cell rest ih =>
      exact (pencil.passes_highlight before cell.primary).append ((ih cell.primary).write_cons _)

/-- The role that carets of a style are drawn in. -/
def caretRole (pencil : Pencil) (style : Option LabelStyle) : Option Role :=
  style.map (Role.label pencil.severity)

theorem passes_caretText (cell : CaretCell) (role : Option Role) :
    pencil.Passes role (pencil.caretText cell) role := by
  rw [caretText]
  split
  · exact Passes.write role _
  · exact Passes.write role _
  · split
    · exact Passes.write role _
    · exact Passes.nil role

/-- Before the caret under a character the role is switched, unless it is set already. -/
theorem passes_switch (current style : Option LabelStyle) :
    pencil.Passes (pencil.caretRole current)
      (if style = current then []
        else
          match style with
          | some style => [pencil.setLabel style]
          | none => [.reset])
      (pencil.caretRole style) := by
  split
  · rename_i same
    rw [same]
    exact Passes.nil _
  · cases style with
    | none => exact Passes.reset _
    | some style =>
        cases current with
        | none => exact Passes.set _
        | some before => exact Passes.follow (.label before style)

theorem passes_caretCells (current : Option LabelStyle) (cells : List CaretCell) :
    pencil.Passes (pencil.caretRole current) (pencil.caretCells current cells) none := by
  induction cells generalizing current with
  | nil =>
      cases current with
      | none => exact Passes.nil none
      | some style => exact Passes.reset _
  | cons cell rest ih =>
      exact ((passes_switch current cell.style).append (passes_caretText cell _)).append
        (ih cell.style)

theorem passes_pointerCell (cell : PointerCell) :
    pencil.Passes none (pencil.pointerCell cell) none := by
  rw [pointerCell]
  split
  · apply (passes_inLabel _ _).append
    split
    · exact Passes.write none _
    · exact Passes.nil none
  · split
    · exact Passes.write none _
    · exact Passes.nil none

theorem passes_pointerCells (cells : List PointerCell) :
    pencil.Passes none (cells.flatMap pencil.pointerCell) none :=
  Passes.flatMap fun cell _ => passes_pointerCell cell

/-!
# Rows
-/

theorem passes_writes {α : Type} (role : Option Role) (items : List α) (piece : α → Piece) :
    pencil.Passes role (items.map fun item => .write (piece item)) role := by
  induction items with
  | nil => exact Passes.nil role
  | cons item rest ih => exact ih.write_cons _

theorem passes_bracketRun (stop : BracketEnd) (style : LabelStyle) (run : List Nat)
    (message : String) : pencil.Passes none (pencil.bracketRun stop style run message) none := by
  have text : ∀ role, pencil.Passes role
      (if message.isEmpty then [] else [.write (" " ++ message)]) role := by
    intro role
    split
    · exact Passes.nil role
    · exact Passes.write role _
  have strokes : pencil.Passes none
      (pencil.setLabel style ::
        run.map fun width => .write (.repeated width (pencil.stroke stop)))
      (some (.label pencil.severity style)) :=
    (Passes.set _).append (passes_writes _ run _)
  exact ((strokes.append (Passes.write _ _)).append (text _)).append (Passes.reset _)

theorem passes_code (role : Option Role) (code : String) :
    pencil.Passes role (if code.isEmpty then [] else [.write ("[" ++ code ++ "]")]) role := by
  split
  · exact Passes.nil role
  · exact Passes.write role _

theorem passes_header (locus : Option Locus) (code : Option String) (message : String) :
    pencil.Passes none (pencil.header locus code message) none := by
  have severity : pencil.Passes none
      [pencil.set (.header pencil.severity), .write pencil.severity.name]
      (some (.header pencil.severity)) :=
    (Passes.set _).append (Passes.write _ _)
  have text : pencil.Passes (some (.header pencil.severity))
      [pencil.set .headerMessage, .write (": " ++ message), .reset] none :=
    (Passes.follow .message).append ((Passes.reset _).write_cons _)
  apply Passes.append _ text
  refine Passes.append (Passes.append ?place severity) ?code
  case place =>
    cases locus with
    | none => exact Passes.nil none
    | some locus => exact (Passes.write none _).write_cons _
  case code =>
    cases code with
    | none => exact Passes.nil _
    | some code => exact passes_code _ code

theorem passes_content (padding : Nat) (row : Row) :
    pencil.Passes none (pencil.content padding row) none := by
  cases row with
  | header locus code message => exact passes_header locus code message
  | blank => exact Passes.nil none
  | start locus =>
      exact ((passes_outerGutter padding).append (passes_within _ _)).append
        ((Passes.write none _).write_cons _)
  | source number cells chars =>
      exact (passes_sourceSide padding number cells).append (passes_sourceCells false chars)
  | carets cells carets trailing =>
      have under : pencil.Passes none
          (pencil.leftSide padding cells ++ .write " " :: pencil.caretCells none carets) none :=
        (passes_leftSide padding cells).append ((passes_caretCells none carets).write_cons " ")
      apply under.append
      cases trailing with
      | none => exact Passes.nil none
      | some trailing => exact (passes_inLabel _ _).write_cons _
  | pointers cells pointers =>
      exact (passes_leftSide padding cells).append ((passes_pointerCells pointers).write_cons _)
  | hanging cells pointers style message =>
      exact ((passes_leftSide padding cells).append
        ((passes_pointerCells pointers).write_cons _)).append (passes_inLabel _ _)
  | bracket cells stop style run message =>
      exact (passes_leftSide padding cells).append (passes_bracketRun stop style run message)
  | empty cells => exact passes_leftSide padding cells
  | gap cells =>
      exact ((passes_outerGutter padding).append (passes_within _ _)).append (passes_gutter cells)
  | note isFirst text =>
      have bullet : pencil.Passes none
          (if isFirst then pencil.within .noteBullet pencil.glyphs.noteBullet
            else [.write " "]) none := by
        split
        · exact passes_within _ _
        · exact Passes.write none _
      exact ((passes_outerGutter padding).append bullet).append ((Passes.write none _).write_cons _)

theorem passes_row (padding : Nat) (row : Row) :
    pencil.Passes none (pencil.row padding row) none :=
  (passes_content padding row).append (Passes.write none _)

/-- The events up to the fault of a row are among all its events. -/
theorem isOf_rowEvents (machine : Machine) (padding : Nat) (row : Row) :
    ∀ event ∈ Overflow.rowEvents machine pencil padding row, event.IsOf pencil.theme := by
  intro event member
  exact (passes_row padding row).isOf event ((List.takeWhile_prefix _).subset member)

end Pencil

/-!
# Courses
-/

namespace Overflow
namespace Course

open Event

/-- The events of a course are those of one theme, and they leave no role set unless a fault ends
them. -/
structure IsClosed (course : Course) (theme : Theme) : Prop where
  isOf : ∀ event ∈ course.events, event.IsOf theme
  roleAfter_eq : course.fault = none → roleAfter none course.events = none

theorem isClosed_ofSteps (machine : Machine) (pencil : Pencil) (steps : List Step) :
    (ofSteps machine pencil steps).IsClosed pencil.theme := by
  induction steps with
  | nil => exact ⟨List.forall_mem_nil _, fun _ => rfl⟩
  | cons step rest ih =>
      cases step with
      | trace written => exact ih
      | fail failure =>
          rw [ofSteps]
          cases failure.raised <;> exact ⟨List.forall_mem_nil _, fun _ => rfl⟩
      | row padding row =>
          rw [ofSteps]
          cases ofRow? machine pencil padding row with
          | some fault =>
              refine ⟨Pencil.isOf_rowEvents machine padding row, ?_⟩
              intro intact
              cases intact
          | none =>
              have drawn : pencil.Passes none (pencil.row padding row) none :=
                Pencil.passes_row padding row
              refine ⟨List.forall_mem_append.mpr ⟨drawn.isOf, ih.isOf⟩, ?_⟩
              intro intact
              rw [roleAfter_append, drawn.roleAfter_eq]
              exact ih.roleAfter_eq intact

variable {machine : Machine} {lookup : Lookup} {options : Options} {theme : Theme}

theorem isClosed_ofDiagnostic (diagnostic : Diagnostic) :
    (ofDiagnostic machine lookup options theme diagnostic).IsClosed theme := by
  have drawn := isClosed_ofSteps machine (Report.pencil options theme diagnostic)
    (View.steps lookup options diagnostic)
  rw [ofDiagnostic]
  cases ofPlan? lookup options diagnostic with
  | some fault => exact ⟨List.forall_mem_nil _, fun intact => absurd intact (Option.some_ne_none _)⟩
  | none =>
      simp only
      split
      · exact ⟨drawn.isOf, drawn.roleAfter_eq⟩
      · exact drawn

theorem isClosed_ofDiagnostics (diagnostics : List Diagnostic) :
    (ofDiagnostics machine lookup options theme diagnostics).IsClosed theme := by
  induction diagnostics with
  | nil => exact ⟨List.forall_mem_nil _, fun _ => rfl⟩
  | cons diagnostic rest ih =>
      have drawn : (ofDiagnostic machine lookup options theme diagnostic).IsClosed theme :=
        isClosed_ofDiagnostic diagnostic
      simp only [ofDiagnostics]
      split
      · rename_i complete
        have finished := (isComplete_iff.mp complete).2
        refine ⟨List.forall_mem_append.mpr ⟨drawn.isOf, ih.isOf⟩, ?_⟩
        intro intact
        show roleAfter none (_ ++ _) = none
        rw [roleAfter_append, drawn.roleAfter_eq finished]
        exact ih.roleAfter_eq intact
      · exact drawn

end Course
end Overflow
end SourceReport

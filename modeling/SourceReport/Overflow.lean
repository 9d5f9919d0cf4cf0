import SourceReport.Plan.Draft
import SourceReport.Report

/-!
# Overflow

A report is laid out for numbers, paddings and tabs of any size, but not everything that is laid out
can be drawn: a number may be too long to be written, and a text too long for the machine. The
drawing ends with a fault then. What was written before that piece stays written.
-/

namespace SourceReport
namespace Overflow

/-!
# Rows
-/

def ofEvent? (machine : Machine) : Event → Option Fault
  | .write piece => piece.fault? machine
  | .set _ _ => none
  | .reset => none

def fits (machine : Machine) (event : Event) : Bool :=
  (ofEvent? machine event).isNone

/-- The fault that drawing a row ends with. -/
def ofRow? (machine : Machine) (pencil : Pencil) (padding : Nat) (row : Row) : Option Fault :=
  (pencil.row padding row).findSome? (ofEvent? machine)

/-- The events of a row up to its fault. -/
def rowEvents (machine : Machine) (pencil : Pencil) (padding : Nat) (row : Row) : List Event :=
  (pencil.row padding row).takeWhile (fits machine)

/-- The events of rows, up to the first fault. -/
def rowsEvents (pencil : Pencil) (padding : Nat) (rows : List Row) (machine : Machine := {}) :
    List Event × Option Fault :=
  let events := rows.flatMap (pencil.row padding)
  (events.takeWhile (fits machine), events.findSome? (ofEvent? machine))

/-!
# Reports
-/

/-- A report, and the fault that ended it. -/
structure Drawing where
  report : Report
  fault : Option Fault := none

namespace Drawing

def isComplete (drawing : Drawing) : Bool :=
  drawing.report.failure.isNone && drawing.fault.isNone

/-- The drawing that ends with what is raised, and adds nothing to the report. -/
def ofRaised (report : Report) : Raised → Drawing
  | .failure failure => { report := { report with failure := some failure } }
  | .fault fault => { report, fault := some fault }

end Drawing

/-- The fault that a step ends with. A failure is one if it cannot be put into words. -/
def ofStep? (machine : Machine) (pencil : Pencil) : Step → Option Fault
  | .trace _ => none
  | .row padding row => ofRow? machine pencil padding row
  | .fail failure => failure.raised.fault?

/-- Performs steps up to the first failure or fault. -/
def perform (machine : Machine) (pencil : Pencil) (report : Report) : List Step → Drawing
  | [] => { report }
  | .trace trace :: rest =>
      perform machine pencil { report with traces := report.traces ++ [trace] } rest
  | .fail failure :: _ => .ofRaised report failure.raised
  | .row padding row :: rest =>
      match report.emitter.run (rowEvents machine pencil padding row) with
      | (emitter, some failure) =>
          { report := { report with emitter, failure := some failure } }
      | (emitter, none) =>
          match ofRow? machine pencil padding row with
          | some fault => { report := { report with emitter }, fault := some fault }
          | none => perform machine pencil { report with emitter } rest

/-- The fault that planning a diagnostic ends with. -/
def ofPlan? (lookup : Lookup) (options : Options) (diagnostic : Diagnostic) : Option Fault :=
  match options.displayStyle with
  | .rich =>
      match Plan.drafted lookup options diagnostic.labels with
      | .ok _ => none
      | .error raised => raised.fault?
  | .medium => none
  | .short => none

section Reports

variable (lookup : Lookup) (options : Options) (theme : Theme)

/-- Draws one more diagnostic. It counts only if it was drawn completely. -/
def add (report : Report) (diagnostic : Diagnostic) (machine : Machine := {}) : Drawing :=
  match ofPlan? lookup options diagnostic with
  | some fault => { report, fault := some fault }
  | none =>
      let drawn :=
        perform machine (Report.pencil options theme diagnostic) report
          (View.steps lookup options diagnostic)
      if drawn.isComplete then { report := { drawn.report with count := drawn.report.count + 1 } }
      else drawn

def addAll (report : Report) (diagnostics : List Diagnostic) (machine : Machine := {}) : Drawing :=
  match diagnostics with
  | [] => { report }
  | diagnostic :: rest =>
      let drawn := add lookup options theme report diagnostic machine
      if drawn.isComplete then addAll drawn.report rest machine else drawn

/-- Draws diagnostics in order, and tells how many when all are drawn. -/
def emitAll (emitter : Emitter) (diagnostics : List Diagnostic) (machine : Machine := {}) :
    Drawing :=
  let drawn := addAll lookup options theme { emitter } diagnostics machine
  if drawn.isComplete then
    { report := { drawn.report with traces := drawn.report.traces ++ [.emitted drawn.report.count] } }
  else drawn

end Reports

/-!
# Reports without overflow

As long as everything fits, the drawing is the report that knows no bounds.
-/

section Fitting

variable {machine : Machine} {pencil : Pencil} {padding : Nat} {row : Row}

theorem fits_iff {event : Event} : fits machine event = true ↔ ofEvent? machine event = none := by
  rw [fits, Option.isNone_iff_eq_none]

/-- A row without a fault is drawn to its end. -/
theorem rowEvents_eq_row (fit : ofRow? machine pencil padding row = none) :
    rowEvents machine pencil padding row = pencil.row padding row := by
  have fitting : ∀ event ∈ pencil.row padding row, fits machine event = true := by
    intro event member
    exact fits_iff.mpr (List.findSome?_eq_none_iff.mp fit event member)
  have whole := @List.takeWhile_append_of_pos _ (fits machine) _ [] fitting
  rwa [List.append_nil, List.takeWhile_nil, List.append_nil] at whole

theorem perform_eq_of_fits (report : Report) (steps : List Step)
    (fit : steps.findSome? (ofStep? machine pencil) = none) :
    perform machine pencil report steps = { report := report.perform pencil steps } := by
  induction steps generalizing report with
  | nil => rfl
  | cons step rest ih =>
      rw [List.findSome?_eq_none_iff, List.forall_mem_cons] at fit
      have others := List.findSome?_eq_none_iff.mpr fit.2
      cases step with
      | trace trace => exact ih _ others
      | fail failure =>
          have worded : failure.raised.fault? = none := fit.1
          rw [perform, Report.perform]
          rw [Failure.raised] at worded ⊢
          split at worded
          · rename_i writable
            rw [if_pos writable, Drawing.ofRaised]
          · cases worded
      | row padding row =>
          have whole : ofRow? machine pencil padding row = none := fit.1
          rw [perform, Report.perform, rowEvents_eq_row whole]
          cases report.emitter.run (pencil.row padding row) with
          | mk emitter failure =>
              cases failure with
              | some failure => rfl
              | none =>
                  simp only [whole]
                  exact ih _ others

variable {lookup : Lookup} {options : Options} {diagnostic : Diagnostic}

theorem add_eq_of_fits (theme : Theme) (report : Report)
    (planned : ofPlan? lookup options diagnostic = none)
    (fit : (View.steps lookup options diagnostic).findSome?
      (ofStep? machine (Report.pencil options theme diagnostic)) = none) :
    add lookup options theme report diagnostic machine =
      { report := report.add lookup options theme diagnostic } := by
  rw [add, planned, Report.add]
  simp only [perform_eq_of_fits report _ fit]
  cases failed :
      (report.perform (Report.pencil options theme diagnostic)
        (View.steps lookup options diagnostic)).failure with
  | none => simp [Drawing.isComplete, failed]
  | some failure => simp [Drawing.isComplete, failed]

end Fitting

end Overflow
end SourceReport

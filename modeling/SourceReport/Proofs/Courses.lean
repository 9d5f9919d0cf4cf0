import Mathlib.Data.List.TakeWhile
import SourceReport.Proofs.Reports

/-!
# Courses

What a report draws does not depend on the emitter that it is drawn through. Its course is the
sequence of the events that are drawn, with the failure or the fault that ends it. A report is the
run of its course, up to the first write that the sink refuses.
-/

namespace SourceReport
namespace Emitter

variable {emitter : Emitter}

theorem run_append_of_done {front : List Event} (h : (emitter.run front).2 = none)
    (back : List Event) : emitter.run (front ++ back) = (emitter.run front).1.run back := by
  induction front generalizing emitter with
  | nil => rfl
  | cons event rest ih =>
      rw [run] at h
      rw [List.cons_append, run, run]
      cases stepped : emitter.step event with
      | mk next failure =>
          rw [stepped] at h
          cases failure with
          | none => exact ih h
          | some failure => cases h

theorem run_append_of_failed {front : List Event} {failure : Failure}
    (h : (emitter.run front).2 = some failure) (back : List Event) :
    emitter.run (front ++ back) = emitter.run front := by
  induction front generalizing emitter with
  | nil => cases h
  | cons event rest ih =>
      rw [run] at h
      rw [List.cons_append, run, run]
      cases stepped : emitter.step event with
      | mk next failure =>
          rw [stepped] at h
          cases failure with
          | none => exact ih h
          | some failure => rfl

end Emitter

/-- The events that a step is drawn with. -/
def Step.events (pencil : Pencil) : Step → List Event
  | .row padding drawn => pencil.row padding drawn
  | .trace _ => []
  | .fail _ => []

namespace Overflow

/-!
# The course of a report
-/

/-- The events that are drawn, how many diagnostics they complete, and what ended them. -/
structure Course where
  events : List Event := []
  count : Nat := 0
  failure : Option Failure := none
  fault : Option Fault := none

namespace Course

def isComplete (course : Course) : Bool :=
  course.failure.isNone && course.fault.isNone

theorem isComplete_iff {course : Course} :
    course.isComplete = true ↔ course.failure = none ∧ course.fault = none := by
  rw [isComplete, Bool.and_eq_true, Option.isNone_iff_eq_none, Option.isNone_iff_eq_none]

/-- The course that ends at once with what is raised. -/
def ofRaised : Raised → Course
  | .failure failure => { failure := some failure }
  | .fault fault => { fault := some fault }

theorem isComplete_ofRaised (raised : Raised) : (ofRaised raised).isComplete = false := by
  cases raised with
  | failure failure => rfl
  | fault fault => exact Bool.and_false _

theorem events_ofRaised (raised : Raised) : (ofRaised raised).events = [] := by
  cases raised <;> rfl

/-- The course of steps: it ends with the first failure, or within the first row that has a fault. -/
def ofSteps (machine : Machine) (pencil : Pencil) : List Step → Course
  | [] => {}
  | .trace _ :: rest => ofSteps machine pencil rest
  | .fail failure :: _ => ofRaised failure.raised
  | .row padding row :: rest =>
      match ofRow? machine pencil padding row with
      | some fault => { events := rowEvents machine pencil padding row, fault := some fault }
      | none =>
          let course := ofSteps machine pencil rest
          { course with events := pencil.row padding row ++ course.events }

/-- A course that goes on with the next one. -/
def append (course next : Course) : Course :=
  { next with events := course.events ++ next.events, count := course.count + next.count }

/-- A diagnostic counts if it is drawn completely. -/
def ofDiagnostic (machine : Machine) (lookup : Lookup) (options : Options) (theme : Theme)
    (diagnostic : Diagnostic) : Course :=
  match ofPlan? lookup options diagnostic with
  | some fault => { fault := some fault }
  | none =>
      let course := ofSteps machine (Report.pencil options theme diagnostic)
        (View.steps lookup options diagnostic)
      if course.isComplete then { course with count := 1 } else course

def ofDiagnostics (machine : Machine) (lookup : Lookup) (options : Options) (theme : Theme) :
    List Diagnostic → Course
  | [] => {}
  | diagnostic :: rest =>
      let course := ofDiagnostic machine lookup options theme diagnostic
      if course.isComplete then course.append (ofDiagnostics machine lookup options theme rest)
      else course

end Course

/-- The drawing is the run of a course, after a report with some diagnostics. It ends as the course
does, unless the run fails. -/
structure Drawing.Follows (drawing : Drawing) (report : Report) (course : Course) : Prop where
  emitter_eq : drawing.report.emitter = (report.emitter.run course.events).1
  failure_eq : drawing.report.failure = (report.emitter.run course.events).2.or course.failure
  fault_eq : drawing.fault =
    if (report.emitter.run course.events).2.isSome then none else course.fault
  count_eq : (report.emitter.run course.events).2 = none →
    drawing.report.count = report.count + course.count

namespace Drawing.Follows

variable {drawing next : Drawing} {report : Report} {course others : Course} {failure : Failure}

theorem isComplete_eq (h : drawing.Follows report course)
    (done : (report.emitter.run course.events).2 = none) :
    drawing.isComplete = course.isComplete := by
  rw [Drawing.isComplete, Course.isComplete, h.failure_eq, h.fault_eq, done]
  rfl

theorem isComplete_of_failed (h : drawing.Follows report course)
    (failed : (report.emitter.run course.events).2 = some failure) :
    drawing.isComplete = false := by
  rw [Drawing.isComplete, h.failure_eq, failed]
  rfl

/-- What is drawn after a drawing that did not fail on the sink. -/
theorem append (first : drawing.Follows report course)
    (done : (report.emitter.run course.events).2 = none)
    (second : next.Follows drawing.report others) : next.Follows report (course.append others) := by
  have run := Emitter.run_append_of_done done others.events
  rw [← first.emitter_eq] at run
  refine ⟨?_, ?_, ?_, ?_⟩
  · rw [second.emitter_eq, Course.append, run]
  · rw [second.failure_eq, Course.append, run]
  · rw [second.fault_eq, Course.append, run]
  · intro accepted
    rw [Course.append, run] at accepted
    rw [second.count_eq accepted, first.count_eq done, Nat.add_assoc]
    rfl

/-- Nothing is drawn after a drawing that failed on the sink. -/
theorem append_of_failed (first : drawing.Follows report course)
    (failed : (report.emitter.run course.events).2 = some failure) (others : Course) :
    drawing.Follows report (course.append others) := by
  have run := Emitter.run_append_of_failed failed others.events
  refine ⟨?_, ?_, ?_, ?_⟩
  · rw [first.emitter_eq, Course.append, run]
  · rw [first.failure_eq, Course.append, run, failed]
    rfl
  · rw [first.fault_eq, Course.append, run, failed]
    rfl
  · intro accepted
    rw [Course.append, run, failed] at accepted
    cases accepted

end Drawing.Follows

variable {lookup : Lookup} {options : Options} {theme : Theme} {report : Report} {emitter : Emitter}
  {events : List Event}

theorem Drawing.follows_of_done (going : report.failure = none)
    (drawn : report.emitter.run events = (emitter, none)) (fault : Option Fault) :
    ({ report := { report with emitter }, fault } : Drawing).Follows report { events, fault } := by
  refine ⟨(congrArg Prod.fst drawn).symm, ?_, ?_, fun _ => rfl⟩
  · rw [drawn]
    exact going
  · rw [drawn]
    rfl

theorem Drawing.follows_of_failed {failure : Failure}
    (drawn : report.emitter.run events = (emitter, some failure)) (fault : Option Fault) :
    ({ report := { report with emitter, failure := some failure } } : Drawing).Follows report
      { events, fault } := by
  refine ⟨(congrArg Prod.fst drawn).symm, ?_, ?_, ?_⟩
  · rw [drawn]
    rfl
  · rw [drawn]
    rfl
  · rw [drawn]
    exact nofun

/-!
# Steps
-/

section Steps

variable (machine : Machine) (pencil : Pencil)

theorem follows_ofRaised (going : report.failure = none) (raised : Raised) :
    (Drawing.ofRaised report raised).Follows report (Course.ofRaised raised) := by
  cases raised with
  | failure failure => exact ⟨rfl, rfl, rfl, fun _ => rfl⟩
  | fault fault => exact ⟨rfl, going, rfl, fun _ => rfl⟩

theorem Course.ofSteps_row_cons {padding : Nat} {row : Row}
    (fit : ofRow? machine pencil padding row = none) (rest : List Step) :
    ofSteps machine pencil (.row padding row :: rest) =
      ({ events := pencil.row padding row } : Course).append (ofSteps machine pencil rest) := by
  rw [ofSteps, fit, append, Nat.zero_add]

theorem follows_perform (going : report.failure = none) (steps : List Step) :
    (perform machine pencil report steps).Follows report
      (Course.ofSteps machine pencil steps) := by
  induction steps generalizing report with
  | nil => exact ⟨rfl, going, rfl, fun _ => rfl⟩
  | cons step rest ih =>
      cases step with
      | trace written =>
          have next : { report with traces := report.traces ++ [written] }.failure = none := going
          have drawn := ih next
          exact ⟨drawn.emitter_eq, drawn.failure_eq, drawn.fault_eq, drawn.count_eq⟩
      | fail failure =>
          rw [perform, Course.ofSteps]
          exact follows_ofRaised going failure.raised
      | row padding row =>
          rw [perform]
          cases fault : ofRow? machine pencil padding row with
          | some found =>
              rw [Course.ofSteps, fault]
              cases drawn : report.emitter.run (rowEvents machine pencil padding row) with
              | mk emitter failure =>
                  cases failure with
                  | none => exact Drawing.follows_of_done going drawn _
                  | some failure => exact Drawing.follows_of_failed drawn _
          | none =>
              rw [rowEvents_eq_row fault, Course.ofSteps_row_cons machine pencil fault]
              cases drawn : report.emitter.run (pencil.row padding row) with
              | mk emitter failure =>
                  cases failure with
                  | none =>
                      have first := Drawing.follows_of_done going drawn none
                      have next : { report with emitter }.failure = none := going
                      exact first.append (congrArg Prod.snd drawn) (ih next)
                  | some failure =>
                      have first := @Drawing.follows_of_failed report emitter _ failure drawn none
                      exact first.append_of_failed (congrArg Prod.snd drawn) _

end Steps

/-!
# Diagnostics
-/

variable {machine : Machine}

theorem count_ofSteps (pencil : Pencil) (steps : List Step) :
    (Course.ofSteps machine pencil steps).count = 0 := by
  induction steps with
  | nil => rfl
  | cons step rest ih =>
      cases step with
      | trace written => exact ih
      | fail failure =>
          rw [Course.ofSteps]
          cases failure.raised <;> rfl
      | row padding row =>
          rw [Course.ofSteps]
          cases ofRow? machine pencil padding row with
          | some fault => rfl
          | none => exact ih

theorem follows_add (going : report.failure = none) (diagnostic : Diagnostic) :
    (add lookup options theme report diagnostic machine).Follows report
      (Course.ofDiagnostic machine lookup options theme diagnostic) := by
  rw [add, Course.ofDiagnostic]
  cases ofPlan? lookup options diagnostic with
  | some fault => exact follows_ofRaised going (.fault fault)
  | none =>
      have drawn := follows_perform machine (Report.pencil options theme diagnostic) going
        (View.steps lookup options diagnostic)
      -- A drawing that failed on the sink does not count, whether or not its course is complete.
      cases ends : (report.emitter.run (Course.ofSteps machine
          (Report.pencil options theme diagnostic)
          (View.steps lookup options diagnostic)).events).2 with
      | some failure =>
          simp only [drawn.isComplete_of_failed ends, Bool.false_eq_true, if_false]
          split
          · refine ⟨drawn.emitter_eq, drawn.failure_eq, drawn.fault_eq, ?_⟩
            intro done
            rw [ends] at done
            cases done
          · exact drawn
      | none =>
          have count := drawn.count_eq ends
          rw [count_ofSteps] at count
          simp only [drawn.isComplete_eq ends]
          split
          · rename_i complete
            have intact := (Course.isComplete_iff.mp complete).2
            refine ⟨drawn.emitter_eq, drawn.failure_eq, ?_, fun _ => congrArg (· + 1) count⟩
            rw [intact, ite_self]
          · exact drawn

theorem follows_addAll (going : report.failure = none) (diagnostics : List Diagnostic) :
    (addAll lookup options theme report diagnostics machine).Follows report
      (Course.ofDiagnostics machine lookup options theme diagnostics) := by
  induction diagnostics generalizing report with
  | nil => exact ⟨rfl, going, rfl, fun _ => rfl⟩
  | cons diagnostic rest ih =>
      have drawn : (add lookup options theme report diagnostic machine).Follows report
          (Course.ofDiagnostic machine lookup options theme diagnostic) :=
        follows_add going diagnostic
      cases ends : (report.emitter.run
          (Course.ofDiagnostic machine lookup options theme diagnostic).events).2 with
      | some failure =>
          simp only [addAll, Course.ofDiagnostics, drawn.isComplete_of_failed ends,
            Bool.false_eq_true, if_false]
          split
          · exact drawn.append_of_failed ends _
          · exact drawn
      | none =>
          simp only [addAll, Course.ofDiagnostics, drawn.isComplete_eq ends]
          split
          · rename_i complete
            have unfailed := drawn.failure_eq
            rw [ends, (Course.isComplete_iff.mp complete).1] at unfailed
            exact drawn.append ends (ih unfailed)
          · exact drawn

/-- A report is the run of its course. -/
theorem follows_emitAll (emitter : Emitter) (diagnostics : List Diagnostic) :
    (emitAll lookup options theme emitter diagnostics machine).Follows { emitter }
      (Course.ofDiagnostics machine lookup options theme diagnostics) := by
  have going : ({ emitter } : Report).failure = none := rfl
  have drawn := @follows_addAll lookup options theme { emitter } machine going diagnostics
  rw [emitAll]
  split
  · rename_i complete
    have intact : (addAll lookup options theme { emitter } diagnostics machine).fault = none := by
      rw [Drawing.isComplete, Bool.and_eq_true] at complete
      exact Option.isNone_iff_eq_none.mp complete.2
    exact ⟨drawn.emitter_eq, drawn.failure_eq, intact.symm.trans drawn.fault_eq, drawn.count_eq⟩
  · exact drawn

/-!
# Sinks that accept everything
-/

/-- The drawing is the run of a course, and ends as the course does. -/
structure Drawing.Runs (drawing : Drawing) (report : Report) (course : Course) : Prop where
  emitter_eq : drawing.report.emitter = (report.emitter.run course.events).1
  count_eq : drawing.report.count = report.count + course.count
  failure_eq : drawing.report.failure = course.failure
  fault_eq : drawing.fault = course.fault

namespace Drawing.Runs

variable {drawing : Drawing} {course : Course}

theorem isComplete_eq (h : drawing.Runs report course) :
    drawing.isComplete = course.isComplete := by
  rw [Drawing.isComplete, Course.isComplete, h.failure_eq, h.fault_eq]

end Drawing.Runs

theorem Drawing.Follows.runs {drawing : Drawing} {course : Course}
    (h : drawing.Follows report course) (accepts : report.emitter.Accepts) :
    drawing.Runs report course := by
  have done := (Emitter.run_of_accepts accepts course.events).1
  refine ⟨h.emitter_eq, h.count_eq done, ?_, ?_⟩
  · rw [h.failure_eq, done]
    rfl
  · rw [h.fault_eq, done]
    rfl

theorem runs_add (going : report.failure = none) (h : report.emitter.Accepts)
    (diagnostic : Diagnostic) :
    (add lookup options theme report diagnostic machine).Runs report
      (Course.ofDiagnostic machine lookup options theme diagnostic) :=
  (follows_add going diagnostic).runs h

theorem takeWhile_of_cut {front : List Event} {event : Event} {fault : Fault}
    (fitting : ∀ drawn ∈ front, fits machine drawn = true)
    (fails : ofEvent? machine event = some fault) (rest : List Event) :
    (front ++ event :: rest).takeWhile (fits machine) = front := by
  have unfit : ¬ fits machine event = true := by
    rw [fits_iff, fails]
    exact nofun
  rw [List.takeWhile_append_of_pos fitting, List.takeWhile_cons_of_neg unfit, List.append_nil]

/-- Events with a fault have a first one that cannot be drawn. -/
theorem exists_cut {events : List Event} {fault : Fault}
    (fails : events.findSome? (ofEvent? machine) = some fault) :
    ∃ front event rest, events = front ++ event :: rest ∧
      (∀ drawn ∈ front, fits machine drawn = true) ∧ ofEvent? machine event = some fault := by
  rcases List.findSome?_eq_some_iff.mp fails with ⟨front, event, rest, split, ends, before⟩
  exact ⟨front, event, rest, split, fun drawn member => fits_iff.mpr (before drawn member), ends⟩

theorem fits_of_mem {events : List Event} (fit : events.findSome? (ofEvent? machine) = none) :
    ∀ event ∈ events, fits machine event = true :=
  fun event member => fits_iff.mpr (List.findSome?_eq_none_iff.mp fit event member)

/-- Steps without a failure are drawn with their events, up to the first piece that cannot be made. -/
theorem Course.ofSteps_eq (pencil : Pencil) {steps : List Step}
    (unfailing : ∀ failure, Step.fail failure ∉ steps) :
    ofSteps machine pencil steps =
      { events := (steps.flatMap (Step.events pencil)).takeWhile (fits machine)
        fault := (steps.flatMap (Step.events pencil)).findSome? (ofEvent? machine) } := by
  induction steps with
  | nil => rfl
  | cons step rest ih =>
      have others : ∀ failure, Step.fail failure ∉ rest := by
        intro failure member
        exact unfailing failure (List.mem_cons_of_mem step member)
      cases step with
      | trace written => exact ih others
      | fail failure => exact absurd List.mem_cons_self (unfailing failure)
      | row padding row =>
          rw [ofSteps, List.flatMap_cons, Step.events, List.findSome?_append, ofRow?]
          cases found : (pencil.row padding row).findSome? (ofEvent? machine) with
          | none =>
              rw [List.takeWhile_append_of_pos (fits_of_mem found), ih others]
              rfl
          | some fault =>
              rcases exists_cut found with ⟨front, event, back, split, fitting, fails⟩
              rw [rowEvents, split, takeWhile_of_cut fitting fails, List.append_assoc,
                List.cons_append, takeWhile_of_cut fitting fails]
              rfl

/-- The drawing shows the events up to the first piece that cannot be made, all of them if there is
no such piece, and none if the diagnostic cannot be planned. -/
structure Drawing.Shows (drawing : Drawing) (report : Report) (machine : Machine)
    (unplanned : Option Fault) (events : List Event) : Prop where
  failure_eq : drawing.report.failure = none
  of_unplanned : ∀ fault, unplanned = some fault → drawing = { report, fault := some fault }
  of_done : drawing.fault = none → drawing.report.emitter = (report.emitter.run events).1
  of_cut : unplanned = none → ∀ fault, drawing.fault = some fault →
    ∃ front event rest, events = front ++ event :: rest ∧
      (∀ drawn ∈ front, fits machine drawn = true) ∧ ofEvent? machine event = some fault ∧
      drawing.report.emitter = (report.emitter.run front).1

/-- On any machine and in any theme, the steps of the view are what is drawn of a diagnostic. -/
def DrawsSteps (lookup : Lookup) (options : Options) (diagnostic : Diagnostic) : Prop :=
  ∀ (machine : Machine) (theme : Theme) (report : Report), report.failure = none →
    report.emitter.Accepts →
      (add lookup options theme report diagnostic machine).Shows report machine
        (ofPlan? lookup options diagnostic)
        ((View.steps lookup options diagnostic).flatMap
          (Step.events (Report.pencil options theme diagnostic)))

theorem drawsSteps {diagnostic : Diagnostic}
    (unfailing : ∀ failure, Step.fail failure ∉ View.steps lookup options diagnostic) :
    DrawsSteps lookup options diagnostic := by
  intro machine theme report going h
  have runs := @runs_add lookup options theme report machine going h diagnostic
  cases planned : ofPlan? lookup options diagnostic with
  | some fault =>
      have drawn : add lookup options theme report diagnostic machine =
          { report, fault := some fault } := by rw [add, planned]
      rw [drawn]
      have faulty : some fault ≠ none := Option.some_ne_none fault
      refine ⟨going, ?_, fun intact => absurd intact faulty, fun intact => absurd intact faulty⟩
      rintro _ ⟨⟩
      rfl
  | none =>
      generalize shown : (View.steps lookup options diagnostic).flatMap
        (Step.events (Report.pencil options theme diagnostic)) = events
      -- Whether the course counts or not, it has these events and this fault.
      have course : ∃ count, Course.ofDiagnostic machine lookup options theme diagnostic =
          { events := events.takeWhile (fits machine), count
            fault := events.findSome? (ofEvent? machine) } := by
        rw [Course.ofDiagnostic, planned]
        simp only [Course.ofSteps_eq _ unfailing, shown]
        split
        · exact ⟨1, rfl⟩
        · exact ⟨0, rfl⟩
      rcases course with ⟨count, course⟩
      rw [course] at runs
      refine ⟨runs.failure_eq, ?_, ?_, ?_⟩
      · intro fault same
        cases same
      · intro done
        rw [runs.fault_eq] at done
        rw [runs.emitter_eq, List.takeWhile_eq_self_iff.mpr (fits_of_mem done)]
      · intro _ fault fails
        rw [runs.fault_eq] at fails
        rcases exists_cut fails with ⟨front, event, rest, split, fitting, ends⟩
        refine ⟨front, event, rest, split, fitting, ends, ?_⟩
        rw [runs.emitter_eq, split, takeWhile_of_cut fitting ends]

/-- A report on a sink that accepts everything is the run of its course. -/
theorem runs_emitAll {emitter : Emitter} (h : emitter.Accepts) (diagnostics : List Diagnostic) :
    (emitAll lookup options theme emitter diagnostics machine).Runs { emitter }
      (Course.ofDiagnostics machine lookup options theme diagnostics) :=
  (follows_emitAll emitter diagnostics).runs h

/-!
# Courses of valid diagnostics
-/

theorem Course.ofDiagnostic_of_valid {base : FileBase} {diagnostic : Diagnostic}
    (valid : ∀ label ∈ diagnostic.labels, label.IsValid base) :
    (ofDiagnostic machine base.lookup options theme diagnostic).failure = none ∧
      ∀ fault, (ofDiagnostic machine base.lookup options theme diagnostic).fault = some fault →
        IsOverflow fault ∨ fault = .longNumber ∧ ¬ base.HasShortNumbers := by
  let report : Report := { emitter := { kind := .plain } }
  have accepts : report.emitter.Accepts := fun _ _ _ => rfl
  have ends := @add_of_valid machine base options theme report diagnostic valid rfl accepts
  have drawn := @runs_add base.lookup options theme report machine rfl accepts diagnostic
  rwa [drawn.failure_eq, drawn.fault_eq] at ends

/-- With valid labels a course has no failure, and what can end it is a text or a number that is too
long. -/
theorem Course.ofDiagnostics_of_valid {base : FileBase} {diagnostics : List Diagnostic}
    (valid : ∀ diagnostic ∈ diagnostics, ∀ label ∈ diagnostic.labels, label.IsValid base) :
    (ofDiagnostics machine base.lookup options theme diagnostics).failure = none ∧
      ∀ fault, (ofDiagnostics machine base.lookup options theme diagnostics).fault = some fault →
        IsOverflow fault ∨ fault = .longNumber ∧ ¬ base.HasShortNumbers := by
  induction diagnostics with
  | nil => exact ⟨rfl, nofun⟩
  | cons diagnostic rest ih =>
      rw [List.forall_mem_cons] at valid
      simp only [ofDiagnostics]
      split
      · exact ih valid.2
      · exact ofDiagnostic_of_valid valid.1

/-!
# Courses of the first diagnostics
-/

/-- The course of the first of some diagnostics is how the course of all begins. -/
theorem isPrefix_events {front diagnostics : List Diagnostic} (h : front <+: diagnostics) :
    (Course.ofDiagnostics machine lookup options theme front).events <+:
      (Course.ofDiagnostics machine lookup options theme diagnostics).events := by
  induction front generalizing diagnostics with
  | nil => exact List.nil_prefix
  | cons diagnostic rest ih =>
      cases diagnostics with
      | nil => cases List.prefix_nil.mp h
      | cons other others =>
          rcases List.cons_prefix_cons.mp h with ⟨rfl, tail⟩
          simp only [Course.ofDiagnostics]
          split
          · exact (List.prefix_append_right_inj _).mpr (ih tail)
          · exact List.prefix_refl _

end Overflow
end SourceReport

import Mathlib.Data.List.TakeWhile
import SourceReport.Proofs.Styling

/-!
# Independent diagnostics

Diagnostics that share an emitter are written as if each had a new emitter of its own. Nothing is
left of a diagnostic but its text: no style is shown after it, and one that is rejected has written
nothing. The first diagnostic that is not drawn completely is the last one that is looked at.
-/

namespace SourceReport
namespace Overflow
namespace Course

variable {machine : Machine} {lookup : Lookup} {options : Options} {theme : Theme}

/-!
# Courses of single diagnostics
-/

theorem ofDiagnostics_singleton (diagnostic : Diagnostic) :
    ofDiagnostics machine lookup options theme [diagnostic] =
      ofDiagnostic machine lookup options theme diagnostic := by
  simp only [ofDiagnostics]
  split
  · rename_i complete
    rcases isComplete_iff.mp complete with ⟨unfailed, intact⟩
    rw [append, List.append_nil, ← unfailed, ← intact]
    rfl
  · rfl

theorem count_ofDiagnostic (diagnostic : Diagnostic)
    (complete : (ofDiagnostic machine lookup options theme diagnostic).isComplete = true) :
    (ofDiagnostic machine lookup options theme diagnostic).count = 1 := by
  rw [ofDiagnostic] at complete ⊢
  cases planned : ofPlan? lookup options diagnostic with
  | some fault =>
      rw [planned] at complete
      cases complete
  | none =>
      rw [planned] at complete
      simp only at complete ⊢
      split
      · rfl
      · rename_i incomplete
        rw [if_neg incomplete] at complete
        exact absurd complete incomplete

variable (machine lookup options theme)

/-- The diagnostics before the first one that is not drawn completely. -/
def completed (diagnostics : List Diagnostic) : List Diagnostic :=
  diagnostics.takeWhile fun diagnostic =>
    (ofDiagnostic machine lookup options theme diagnostic).isComplete

/-- The first diagnostic that is not drawn completely. -/
def stopped? (diagnostics : List Diagnostic) : Option Diagnostic :=
  diagnostics.find? fun diagnostic =>
    !(ofDiagnostic machine lookup options theme diagnostic).isComplete

variable {machine lookup options theme}

/-- The diagnostics that are drawn at all: those before the first incomplete one, and that one. -/
theorem events_ofDiagnostics (diagnostics : List Diagnostic) :
    (ofDiagnostics machine lookup options theme diagnostics).events =
      (completed machine lookup options theme diagnostics ++
        (stopped? machine lookup options theme diagnostics).toList).flatMap fun diagnostic =>
          (ofDiagnostic machine lookup options theme diagnostic).events := by
  induction diagnostics with
  | nil => rfl
  | cons diagnostic rest ih =>
      rw [completed, stopped?] at ih ⊢
      cases complete : (ofDiagnostic machine lookup options theme diagnostic).isComplete with
      | true => simp [ofDiagnostics, complete, append, ih]
      | false => simp [ofDiagnostics, complete]

/-- All diagnostics are drawn completely if and only if each one is. -/
theorem isComplete_ofDiagnostics_iff (diagnostics : List Diagnostic) :
    (ofDiagnostics machine lookup options theme diagnostics).isComplete = true ↔
      ∀ diagnostic ∈ diagnostics,
        (ofDiagnostic machine lookup options theme diagnostic).isComplete = true := by
  induction diagnostics with
  | nil => exact ⟨fun _ => List.forall_mem_nil _, fun _ => rfl⟩
  | cons diagnostic rest ih =>
      rw [List.forall_mem_cons, ← ih, ofDiagnostics]
      cases complete : (ofDiagnostic machine lookup options theme diagnostic).isComplete with
      | true => simp [append, isComplete]
      | false => simp [complete]

theorem count_ofDiagnostics {diagnostics : List Diagnostic}
    (complete : (ofDiagnostics machine lookup options theme diagnostics).isComplete = true) :
    (ofDiagnostics machine lookup options theme diagnostics).count = diagnostics.length := by
  induction diagnostics with
  | nil => rfl
  | cons diagnostic rest ih =>
      have each := (isComplete_ofDiagnostics_iff (diagnostic :: rest)).mp complete
      rw [List.forall_mem_cons] at each
      have others := (isComplete_ofDiagnostics_iff rest).mpr each.2
      simp only [ofDiagnostics, each.1, if_true, append]
      rw [count_ofDiagnostic diagnostic each.1, ih others, List.length_cons, Nat.add_comm]

/-- What ends the drawing of all diagnostics is what ends the drawing of the first incomplete one. -/
theorem ends_ofDiagnostics (diagnostics : List Diagnostic) :
    (ofDiagnostics machine lookup options theme diagnostics).failure =
        (stopped? machine lookup options theme diagnostics).bind (fun diagnostic =>
          (ofDiagnostic machine lookup options theme diagnostic).failure) ∧
      (ofDiagnostics machine lookup options theme diagnostics).fault =
        (stopped? machine lookup options theme diagnostics).bind fun diagnostic =>
          (ofDiagnostic machine lookup options theme diagnostic).fault := by
  induction diagnostics with
  | nil => exact ⟨rfl, rfl⟩
  | cons diagnostic rest ih =>
      rw [stopped?] at ih ⊢
      cases complete : (ofDiagnostic machine lookup options theme diagnostic).isComplete with
      | true => simp [ofDiagnostics, complete, append, ih]
      | false => simp [ofDiagnostics, complete]

/-!
# Rejected diagnostics
-/

/-- A diagnostic that fails does so before anything is drawn. -/
theorem events_eq_nil {base : FileBase} {diagnostic : Diagnostic}
    (failed : (ofDiagnostic machine base.lookup options theme diagnostic).failure ≠ none) :
    (ofDiagnostic machine base.lookup options theme diagnostic).events = [] := by
  by_cases valid : ∀ label ∈ diagnostic.labels, label.IsValid base
  · exact absurd (ofDiagnostic_of_valid valid).1 failed
  · simp only [not_forall, exists_prop] at valid
    rcases @View.exists_steps_eq_fail base 1 options diagnostic valid with ⟨failure, rejected⟩
    rw [FileBase.numberedFrom_one] at rejected
    rw [ofDiagnostic, rejected]
    cases ofPlan? base.lookup options diagnostic with
    | some fault => rfl
    | none =>
        simp only [ofSteps, isComplete_ofRaised, Bool.false_eq_true, if_false]
        exact events_ofRaised failure.raised

/-!
# Styles between diagnostics
-/

/-- No style is shown after a diagnostic, unless a fault ends it. -/
theorem shownAfter_ofDiagnostics (kind : EmitterKind) (diagnostics : List Diagnostic)
    (intact : (ofDiagnostics machine lookup options theme diagnostics).fault = none) :
    kind.shownAfter .plain (ofDiagnostics machine lookup options theme diagnostics).events =
      .plain := by
  have closed : (ofDiagnostics machine lookup options theme diagnostics).IsClosed theme :=
    isClosed_ofDiagnostics diagnostics
  by_cases styled : kind = .plain
  · rw [styled, EmitterKind.shownAfter_plain]
  · exact EmitterKind.shownAfter_eq_plain styled (fun _ => rfl) (closed.roleAfter_eq intact)

end Course

/-!
# Texts of diagnostics
-/

variable {machine : Machine} {lookup : Lookup} {options : Options} {theme : Theme}

theorem toList_written_singleton (kind : EmitterKind) (diagnostic : Diagnostic) :
    (written machine lookup options theme kind [diagnostic]).toList =
      kind.output .plain (Course.ofDiagnostic machine lookup options theme diagnostic).events := by
  rw [toList_written, Course.ofDiagnostics_singleton]

/-- Diagnostics that are drawn completely, and then another one, are written as each one alone. -/
theorem output_flatMap (kind : EmitterKind) {front : List Diagnostic}
    (complete : ∀ diagnostic ∈ front,
      (Course.ofDiagnostic machine lookup options theme diagnostic).isComplete = true)
    (last : Option Diagnostic) :
    kind.output .plain ((front ++ last.toList).flatMap fun diagnostic =>
        (Course.ofDiagnostic machine lookup options theme diagnostic).events) =
      (front ++ last.toList).flatMap fun diagnostic =>
        (written machine lookup options theme kind [diagnostic]).toList := by
  induction front with
  | nil =>
      cases last with
      | none => rfl
      | some diagnostic =>
          rw [List.nil_append, Option.toList_some, List.flatMap_singleton, List.flatMap_singleton,
            toList_written_singleton]
  | cons diagnostic rest ih =>
      rw [List.forall_mem_cons] at complete
      have intact :
          (Course.ofDiagnostics machine lookup options theme [diagnostic]).fault = none := by
        rw [Course.ofDiagnostics_singleton]
        exact (Course.isComplete_iff.mp complete.1).2
      have plain := Course.shownAfter_ofDiagnostics kind [diagnostic] intact
      rw [Course.ofDiagnostics_singleton] at plain
      rw [List.cons_append, List.flatMap_cons, List.flatMap_cons, EmitterKind.output_append, plain,
        ih complete.2, toList_written_singleton]

/-- Through any emitter that shows no style, on a sink that accepts everything, the diagnostics that
are drawn are written as each one alone. -/
theorem written_emitAll {kind : EmitterKind} {sink : Sink}
    (accepts : ({ kind, sink } : Emitter).Accepts) (diagnostics : List Diagnostic) :
    (emitAll lookup options theme { kind, sink } diagnostics machine).report.emitter.sink.written =
      sink.written ++ String.join
        ((Course.completed machine lookup options theme diagnostics ++
          (Course.stopped? machine lookup options theme diagnostics).toList).map fun diagnostic =>
            written machine lookup options theme kind [diagnostic]) := by
  have drawn : (emitAll lookup options theme { kind, sink } diagnostics machine).Runs
      { emitter := { kind, sink } } (Course.ofDiagnostics machine lookup options theme diagnostics) :=
    runs_emitAll accepts diagnostics
  have leads := Emitter.leads_run accepts
    (Course.ofDiagnostics machine lookup options theme diagnostics).events
  have complete : ∀ diagnostic ∈ Course.completed machine lookup options theme diagnostics,
      (Course.ofDiagnostic machine lookup options theme diagnostic).isComplete = true := by
    intro diagnostic member
    exact List.all_eq_true.mp List.all_takeWhile diagnostic member
  apply String.toList_injective
  rw [drawn.emitter_eq, leads.written_eq, Course.events_ofDiagnostics, output_flatMap kind complete,
    String.toList_append, String.toList_join, List.flatMap_map]

end Overflow

namespace Letters

/-- A diagnostic with a label in a file that is not there. -/
def lost : Diagnostic where
  severity := .warning
  code := none
  message := "letters"
  labels := [one, { one with file := .int 7 }]
  notes := []

def unlabeled : Diagnostic where
  severity := .note
  code := none
  message := "letters"
  labels := []
  notes := []

end Letters

namespace Overflow

/-!
# Diagnostics together and alone
-/

theorem diagnostics_independent (machine : Machine) (base : FileBase) (options : Options)
    (theme : Theme) (kind : EmitterKind) (sink : Sink)
    (accepts : ({ kind, sink } : Emitter).Accepts) (diagnostics : List Diagnostic) :
    let drawing := fun shown => emitAll base.lookup options theme { kind, sink } shown machine
    let alone := fun diagnostic => emitAll base.lookup options theme { kind } [diagnostic] machine
    let texts := fun shown : List Diagnostic =>
      String.join (shown.map fun diagnostic => (alone diagnostic).report.emitter.sink.written)
    let completed := diagnostics.takeWhile fun diagnostic => (alone diagnostic).isComplete
    let stopped? := diagnostics.find? fun diagnostic => !(alone diagnostic).isComplete
    ((drawing diagnostics).isComplete = true ↔
        ∀ diagnostic ∈ diagnostics, (alone diagnostic).isComplete = true) ∧
      ((drawing diagnostics).isComplete = true →
        (drawing diagnostics).report.count = diagnostics.length ∧
          (drawing diagnostics).report.emitter.sink.written = sink.written ++ texts diagnostics) ∧
      ((drawing diagnostics).report.failure =
          stopped?.bind (fun diagnostic => (alone diagnostic).report.failure) ∧
        (drawing diagnostics).fault = stopped?.bind fun diagnostic => (alone diagnostic).fault) ∧
      ((drawing diagnostics).report.failure ≠ none →
        (drawing diagnostics).report.emitter.sink.written = sink.written ++ texts completed) ∧
      ((drawing diagnostics).fault ≠ none →
        (drawing diagnostics).report.emitter.sink.written =
          sink.written ++ texts (completed ++ stopped?.toList)) ∧
      ∀ front, front <+: diagnostics → (drawing front).fault = none →
        (drawing front).report.emitter.current = .plain := by
  intro drawing alone texts completed stopped?
  have drawn : ∀ shown, (drawing shown).Runs { emitter := { kind, sink } }
      (Course.ofDiagnostics machine base.lookup options theme shown) :=
    runs_emitAll accepts
  have single : ∀ diagnostic, (alone diagnostic).Runs { emitter := { kind } }
      (Course.ofDiagnostic machine base.lookup options theme diagnostic) := by
    intro diagnostic
    rw [← Course.ofDiagnostics_singleton]
    exact runs_kind kind [diagnostic]
  have front : completed = Course.completed machine base.lookup options theme diagnostics := by
    simp only [completed, (single _).isComplete_eq]
    rfl
  have last : stopped? = Course.stopped? machine base.lookup options theme diagnostics := by
    simp only [stopped?, (single _).isComplete_eq]
    rfl
  have all : (drawing diagnostics).report.emitter.sink.written =
      sink.written ++ texts (completed ++ stopped?.toList) := by
    rw [front, last]
    exact written_emitAll accepts diagnostics
  have ends : (drawing diagnostics).report.failure =
        stopped?.bind (fun diagnostic => (alone diagnostic).report.failure) ∧
      (drawing diagnostics).fault = stopped?.bind fun diagnostic => (alone diagnostic).fault := by
    simp only [last, (drawn diagnostics).failure_eq, (drawn diagnostics).fault_eq,
      (single _).failure_eq, (single _).fault_eq]
    exact Course.ends_ofDiagnostics diagnostics
  have whole : (drawing diagnostics).isComplete = true ↔
      ∀ diagnostic ∈ diagnostics, (alone diagnostic).isComplete = true := by
    simp only [(drawn diagnostics).isComplete_eq, (single _).isComplete_eq]
    exact Course.isComplete_ofDiagnostics_iff diagnostics
  refine ⟨whole, ?_, ends, ?_, ?_, ?_⟩
  · intro complete
    have counted : (Course.ofDiagnostics machine base.lookup options theme diagnostics).count =
        diagnostics.length := by
      rw [(drawn diagnostics).isComplete_eq] at complete
      exact Course.count_ofDiagnostics complete
    have every : completed = diagnostics := List.takeWhile_eq_self_iff.mpr (whole.mp complete)
    have none : stopped? = none := by
      rw [List.find?_eq_none]
      intro diagnostic member
      rw [whole.mp complete diagnostic member]
      exact Bool.false_ne_true
    refine ⟨?_, ?_⟩
    · rw [(drawn diagnostics).count_eq, counted, Nat.zero_add]
    · rw [all, every, none, Option.toList_none, List.append_nil]
  · intro failed
    -- The diagnostic that failed is the one that was stopped at, and it has written nothing.
    rw [ends.1] at failed
    cases reached : stopped? with
    | none =>
        rw [reached] at failed
        exact absurd rfl failed
    | some diagnostic =>
        rw [reached, Option.bind_some, (single diagnostic).failure_eq] at failed
        have empty : (alone diagnostic).report.emitter.sink.written = "" := by
          apply String.toList_injective
          rw [(single diagnostic).emitter_eq, Emitter.written_run, Course.events_eq_nil failed]
          rfl
        rw [all, reached, Option.toList_some]
        simp only [texts, List.map_append, List.map_singleton, String.join_append, empty,
          String.join_cons, String.join_nil, String.append_empty]
  · intro _
    exact all
  · intro shown _ intact
    rw [(drawn shown).fault_eq] at intact
    rw [(drawn shown).emitter_eq, (Emitter.leads_run accepts _).current_eq]
    exact Course.shownAfter_ofDiagnostics kind shown intact

theorem diagnostics_independent_letters :
    ({ kind := .debug, sink := { written := "> " } } : Emitter).Accepts ∧
      let drawing := emitAll Letters.base.lookup {} .standardColor
        { kind := .debug, sink := { written := "> " } }
        [Letters.diagnostic, Letters.lost, Letters.diagnostic]
      drawing.report.failure = some (.fileMissing (.int 7)) ∧
        drawing.report.emitter.sink.written =
          "> " ++ written {} Letters.base.lookup {} .standardColor .debug [Letters.diagnostic] ∧
        drawing.report.emitter.current = .plain := by
  have accepts : ({ kind := .debug, sink := { written := "> " } } : Emitter).Accepts :=
    fun _ _ _ => rfl
  have independent := diagnostics_independent {} Letters.base {} .standardColor .debug
    { written := "> " } accepts [Letters.diagnostic, Letters.lost, Letters.diagnostic]
  have drawn : (emitAll Letters.base.lookup {} .standardColor { kind := .debug }
      [Letters.diagnostic]).isComplete = true := by
    decide +kernel
  have lost : (emitAll Letters.base.lookup {} .standardColor { kind := .debug }
      [Letters.lost]).isComplete = false := by
    decide +kernel
  have failed : (emitAll Letters.base.lookup {} .standardColor
      { kind := .debug, sink := { written := "> " } }
      [Letters.diagnostic, Letters.lost, Letters.diagnostic]).report.failure =
        some (.fileMissing (.int 7)) := by
    decide +kernel
  have intact : (emitAll Letters.base.lookup {} .standardColor
      { kind := .debug, sink := { written := "> " } }
      [Letters.diagnostic, Letters.lost, Letters.diagnostic]).fault = none := by
    decide +kernel
  have texts := independent.2.2.2.1 (by rw [failed]; exact Option.some_ne_none _)
  simp only [List.takeWhile_cons, drawn, lost, if_true, Bool.false_eq_true, if_false, List.map_cons,
    List.map_nil, String.join_cons, String.join_nil, String.append_empty] at texts
  exact ⟨accepts, failed, texts, independent.2.2.2.2.2 _ (List.prefix_refl _) intact⟩

/-- A tab of the first diagnostic is drawn as more blanks than a text can have. No failure is
reported, but the second diagnostic is not drawn. -/
theorem diagnostics_interrupted_letters :
    let options : Options := { tabWidth := Nat.pow 10 30 }
    let drawing := emitAll Letters.base.lookup options .noColor { kind := .plain }
      [Letters.diagnostic, Letters.unlabeled]
    drawing.report.failure = none ∧ drawing.fault = some .uncountable ∧
      drawing.report.count ≠ 2 ∧
      drawing.report.emitter.sink.written ≠
        written {} Letters.base.lookup options .noColor .plain [Letters.diagnostic] ++
          written {} Letters.base.lookup options .noColor .plain [Letters.unlabeled] := by
  decide +kernel

end Overflow
end SourceReport

import SourceReport.Proofs.RowFaults

/-!
# Reports on a sink that accepts everything

On such a sink a report fails if and only if a label is rejected. Then nothing is written. Otherwise
every step is drawn, up to the first piece that cannot be made.
-/

namespace SourceReport
namespace Emitter

/-!
# Emitters that are never refused
-/

/-- The sink accepts every write, whatever was written before. -/
def Accepts (emitter : Emitter) : Prop :=
  ∀ written calls text, emitter.sink.accepts written calls text = true

variable {emitter : Emitter}

theorem perform_of_accepts (h : emitter.Accepts) (actions : List Action) :
    (emitter.perform actions).2 = none ∧ (emitter.perform actions).1.Accepts := by
  induction actions generalizing emitter with
  | nil => exact ⟨rfl, h⟩
  | cons action rest ih =>
      cases action with
      | put text =>
          have written : (emitter.sink.write text).2 = true := h _ _ _
          have next : ({ emitter with sink := (emitter.sink.write text).1 } : Emitter).Accepts := h
          rw [perform]
          simp only [written, if_true]
          exact ih next
      | become style =>
          have next : ({ emitter with current := style } : Emitter).Accepts := h
          exact ih next

theorem run_of_accepts (h : emitter.Accepts) (events : List Event) :
    (emitter.run events).2 = none ∧ (emitter.run events).1.Accepts := by
  induction events generalizing emitter with
  | nil => exact ⟨rfl, h⟩
  | cons event rest ih =>
      rcases perform_of_accepts h (emitter.kind.actions emitter.current event) with ⟨done, next⟩
      rw [run, step]
      cases performed : emitter.perform (emitter.kind.actions emitter.current event) with
      | mk after failure =>
          rw [performed] at done next
          cases done
          exact ih next

end Emitter

namespace View

/-!
# What ends a diagnostic before it is drawn
-/

/-- What is raised for the labels before anything is drawn. The rich view alone counts the numbers
of lines first. -/
def stop? (base : FileBase) (first : Int) (options : Options) (diagnostic : Diagnostic) :
    Option Raised :=
  match options.displayStyle with
  | .rich => diagnostic.labels.findSome? fun label => label.raised? base first
  | .medium =>
      (diagnostic.labels.findSome? fun label => label.rejection? base).map Failure.raised
  | .short =>
      (diagnostic.labels.findSome? fun label => label.rejection? base).map Failure.raised

variable {base : FileBase} {first : Int} {options : Options} {labels : List Label}
  {diagnostic : Diagnostic}

theorem stop?_of_rich (rich : options.displayStyle = .rich) :
    stop? base first options diagnostic =
      diagnostic.labels.findSome? fun label => label.raised? base first := by
  rw [stop?, rich]

theorem stop?_of_not_rich (brief : options.displayStyle ≠ .rich) :
    stop? base first options diagnostic =
      (diagnostic.labels.findSome? fun label => label.rejection? base).map Failure.raised := by
  rw [stop?]
  cases style : options.displayStyle with
  | rich => exact absurd style brief
  | medium => rfl
  | short => rfl

theorem findSome?_rejection?_of_valid (valid : ∀ label ∈ labels, label.IsValid base) :
    (labels.findSome? fun label => label.rejection? base) = none := by
  rw [List.findSome?_eq_none_iff]
  intro label listed
  exact Label.rejection?_eq_none_iff.mpr (valid label listed)

/-- The first label that ends a draft in a failure is the first one that is rejected. -/
theorem findSome?_rejection?_of_raised? {failure : Failure}
    (stopped : (labels.findSome? fun label => label.raised? base first) =
      some (.failure failure)) :
    (labels.findSome? fun label => label.rejection? base) = some failure ∧
      failure.raised = .failure failure := by
  induction labels with
  | nil => cases stopped
  | cons label rest ih =>
      rw [List.findSome?_cons] at stopped ⊢
      cases reason : label.rejection? base with
      | some rejected =>
          rw [Label.raised?_of_rejection? reason] at stopped
          have same : rejected.raised = .failure failure := Option.some.inj stopped
          have given := Failure.eq_of_raised same
          rw [given] at same ⊢
          exact ⟨rfl, same⟩
      | none =>
          rw [Label.raised?_of_isValid (Label.rejection?_eq_none_iff.mp reason)] at stopped
          cases counted : label.isCounted base first with
          | true =>
              rw [counted] at stopped
              exact ih stopped
          | false =>
              rw [counted] at stopped
              cases stopped

/-- The failure that ends a diagnostic is the first rejection of a label. -/
theorem rejection?_of_stop? {failure : Failure}
    (stopped : stop? base first options diagnostic = some (.failure failure)) :
    (diagnostic.labels.findSome? fun label => label.rejection? base) = some failure := by
  by_cases rich : options.displayStyle = .rich
  · rw [stop?_of_rich rich] at stopped
    exact (findSome?_rejection?_of_raised? stopped).1
  · rw [stop?_of_not_rich rich] at stopped
    rcases Option.map_eq_some_iff.mp stopped with ⟨rejected, first, worded⟩
    rw [first, Failure.eq_of_raised worded]

theorem findSome?_raised?_of_counted
    (counted : ∀ label ∈ labels, label.IsValid base → label.isCounted base first = true) :
    (labels.findSome? fun label => label.raised? base first) =
      (labels.findSome? fun label => label.rejection? base).map Failure.raised := by
  induction labels with
  | nil => rfl
  | cons label rest ih =>
      rw [List.forall_mem_cons] at counted
      rw [List.findSome?_cons, List.findSome?_cons]
      cases reason : label.rejection? base with
      | some failure =>
          rw [Label.raised?_of_rejection? reason]
          rfl
      | none =>
          have valid := Label.rejection?_eq_none_iff.mp reason
          rw [Label.raised?_of_isValid valid, counted.1 valid]
          exact ih counted.2

/-- All views end alike, as long as the numbers of the lines can be counted. -/
theorem stop?_of_counted (options : Options)
    (counted : ∀ label ∈ diagnostic.labels, label.IsValid base →
      label.isCounted base first = true) :
    stop? base first options diagnostic =
      (diagnostic.labels.findSome? fun label => label.rejection? base).map Failure.raised := by
  by_cases rich : options.displayStyle = .rich
  · rw [stop?_of_rich rich, findSome?_raised?_of_counted counted]
  · exact stop?_of_not_rich rich

theorem isSome_rejection?_iff {label : Label} :
    (label.rejection? base).isSome = true ↔ ¬ label.IsValid base := by
  rw [← Label.rejection?_eq_none_iff, Option.isSome_iff_ne_none]

theorem isSome_raised?_iff {label : Label} :
    (label.raised? base first).isSome = true ↔
      ¬ label.IsValid base ∨ label.isCounted base first = false := by
  rw [Option.isSome_iff_ne_none, ne_eq, Label.raised?_eq_none_iff, not_and_or, Bool.not_eq_true]

theorem isSome_stop?_iff :
    (stop? base first options diagnostic).isSome = true ↔
      (∃ label ∈ diagnostic.labels, ¬ label.IsValid base) ∨
        options.displayStyle = .rich ∧
          ∃ label ∈ diagnostic.labels, label.isCounted base first = false := by
  by_cases rich : options.displayStyle = .rich
  · simp only [stop?_of_rich rich, List.findSome?_isSome_iff, isSome_raised?_iff, and_or_left,
      exists_or, rich, true_and]
  · simp only [stop?_of_not_rich rich, Option.isSome_map, List.findSome?_isSome_iff,
      isSome_rejection?_iff, rich, false_and, or_false]

/-- Valid labels are stopped by a number that is too long. -/
theorem longNumber_of_stop? (valid : ∀ label ∈ diagnostic.labels, label.IsValid base)
    {raised : Raised} (stopped : stop? base 1 options diagnostic = some raised) :
    raised = .fault .longNumber ∧ ¬ base.HasShortNumbers := by
  have unrejected := findSome?_rejection?_of_valid valid
  constructor
  · by_cases rich : options.displayStyle = .rich
    · rw [stop?_of_rich rich] at stopped
      rcases List.exists_of_findSome?_eq_some stopped with ⟨label, listed, ends⟩
      rw [Label.raised?_of_isValid (valid label listed)] at ends
      split at ends
      · cases ends
      · exact (Option.some.inj ends).symm
    · rw [stop?_of_not_rich rich, unrejected] at stopped
      cases stopped
  · intro short
    rw [stop?_of_counted options fun _ _ valid => short.isCounted valid, unrejected] at stopped
    cases stopped

end View

namespace Overflow

/-!
# Faults of a drawing
-/

variable {machine : Machine} {pencil : Pencil}

theorem perform_of_accepts (machine : Machine) (pencil : Pencil) {report : Report}
    (going : report.failure = none) (h : report.emitter.Accepts) {steps : List Step}
    (unfailing : ∀ failure, Step.fail failure ∉ steps) :
    (perform machine pencil report steps).report.failure = none ∧
      (perform machine pencil report steps).fault =
        steps.findSome? (ofStep? machine pencil) := by
  induction steps generalizing report with
  | nil => exact ⟨going, rfl⟩
  | cons step rest ih =>
      have others : ∀ failure, Step.fail failure ∉ rest := by
        intro failure member
        exact unfailing failure (List.mem_cons_of_mem step member)
      cases step with
      | trace trace =>
          have next : { report with traces := report.traces ++ [trace] }.failure = none := going
          exact ih next h others
      | fail failure => exact absurd List.mem_cons_self (unfailing failure)
      | row padding row =>
          rcases Emitter.run_of_accepts h (rowEvents machine pencil padding row) with
            ⟨done, accepts⟩
          rw [perform, List.findSome?_cons, ofStep?]
          cases drawn : report.emitter.run (rowEvents machine pencil padding row) with
          | mk emitter failure =>
              rw [drawn] at done accepts
              cases done
              cases fault : ofRow? machine pencil padding row with
              | some fault => exact ⟨going, rfl⟩
              | none =>
                  have next : ({ report with emitter } : Report).failure = none := going
                  exact ih next accepts others

theorem Drawing.isComplete_ofRaised (report : Report) (raised : Raised) :
    (Drawing.ofRaised report raised).isComplete = false := by
  cases raised with
  | failure failure => rfl
  | fault fault => exact Bool.and_false _

variable {base : FileBase} {first : Int} {options : Options} {theme : Theme} {report : Report}
  {diagnostic : Diagnostic}

/-- Planning ends in a fault if the first label that ends the draft does. -/
theorem ofPlan?_eq (base : FileBase) (first : Int)
    (numbers : ∀ label ∈ diagnostic.labels, label.file.whole?.isSome = true)
    (rich : options.displayStyle = .rich) :
    ofPlan? (base.numberedFrom first) options diagnostic =
      (diagnostic.labels.findSome? fun label => label.raised? base first).bind Raised.fault? := by
  rw [ofPlan?, rich]
  simp only [Plan.drafted_eq numbers]
  cases diagnostic.labels.findSome? fun label => label.raised? base first with
  | none => rfl
  | some raised => rfl

/-- Planning valid labels ends in a fault if one of them lies on a line that is not counted. -/
theorem ofPlan?_of_valid (first : Int) (valid : ∀ label ∈ diagnostic.labels, label.IsValid base)
    (rich : options.displayStyle = .rich) :
    ofPlan? (base.numberedFrom first) options diagnostic =
      if ∀ label ∈ diagnostic.labels, label.isCounted base first = true then none
      else some .longNumber := by
  rw [ofPlan?_eq base first (Plan.numbers_of_valid valid) rich]
  split
  · rename_i counted
    have going : (diagnostic.labels.findSome? fun label => label.raised? base first) = none := by
      rw [List.findSome?_eq_none_iff]
      intro label listed
      exact Label.raised?_eq_none_iff.mpr ⟨valid label listed, counted label listed⟩
    rw [going]
    rfl
  · rename_i uncounted
    cases stopped : diagnostic.labels.findSome? fun label => label.raised? base first with
    | none =>
        rw [List.findSome?_eq_none_iff] at stopped
        exact absurd (fun label listed =>
          (Label.raised?_eq_none_iff.mp (stopped label listed)).2) uncounted
    | some raised =>
        rcases List.exists_of_findSome?_eq_some stopped with ⟨label, listed, ends⟩
        rw [Label.raised?_of_isValid (valid label listed)] at ends
        split at ends
        · cases ends
        · cases ends
          rfl

/-- Valid labels are planned alike in two bases as long as the numbers of their lines are of the same
lengths. -/
theorem ofPlan?_congr {other : FileBase} {second : Int} {changed : Diagnostic}
    (rich : options.displayStyle = .rich)
    (valid : ∀ label ∈ diagnostic.labels, label.IsValid base)
    (again : ∀ label ∈ changed.labels, label.IsValid other)
    (counted : (∀ label ∈ changed.labels, label.isCounted other second = true) ↔
      ∀ label ∈ diagnostic.labels, label.isCounted base first = true) :
    ofPlan? (other.numberedFrom second) options changed =
      ofPlan? (base.numberedFrom first) options diagnostic := by
  simp only [ofPlan?_of_valid second again rich, ofPlan?_of_valid first valid rich, counted]

theorem ofPlan?_of_not_rich (brief : options.displayStyle ≠ .rich) (lookup : Lookup) :
    ofPlan? lookup options diagnostic = none := by
  rw [ofPlan?]
  cases style : options.displayStyle with
  | rich => exact absurd style brief
  | medium => rfl
  | short => rfl

theorem add_of_fail {lookup : Lookup} (planned : ofPlan? lookup options diagnostic = none)
    {failure : Failure} (steps : View.steps lookup options diagnostic = [.fail failure]) :
    add lookup options theme report diagnostic machine = .ofRaised report failure.raised := by
  rw [add, planned, steps]
  simp only [perform, Drawing.isComplete_ofRaised, Bool.false_eq_true, if_false]

/-- What is raised before anything is drawn leaves everything as it was. -/
theorem add_of_stop? (numbers : ∀ label ∈ diagnostic.labels, label.file.whole?.isSome = true)
    {raised : Raised} (stopped : View.stop? base first options diagnostic = some raised) :
    add (base.numberedFrom first) options theme report diagnostic machine =
      .ofRaised report raised := by
  by_cases rich : options.displayStyle = .rich
  · rw [View.stop?_of_rich rich] at stopped
    have planned := ofPlan?_eq base first numbers rich
    rw [stopped] at planned
    cases raised with
    | fault fault =>
        rw [add, planned]
        rfl
    | failure failure =>
        rcases View.findSome?_rejection?_of_raised? stopped with ⟨rejected, worded⟩
        rw [add_of_fail planned (View.steps_of_rejection? numbers rejected), worded]
  · rw [View.stop?_of_not_rich rich] at stopped
    rcases Option.map_eq_some_iff.mp stopped with ⟨failure, rejected, rfl⟩
    exact add_of_fail (ofPlan?_of_not_rich rich _) (View.steps_of_rejection? numbers rejected)

theorem valid_of_stop? (going : View.stop? base first options diagnostic = none) :
    ∀ label ∈ diagnostic.labels, label.IsValid base := by
  intro label listed
  by_contra invalid
  have stopped : (View.stop? base first options diagnostic).isSome = true :=
    View.isSome_stop?_iff.mpr (Or.inl ⟨label, listed, invalid⟩)
  rw [going] at stopped
  cases stopped

theorem ofPlan?_of_stop? (going : View.stop? base first options diagnostic = none) :
    ofPlan? (base.numberedFrom first) options diagnostic = none := by
  by_cases rich : options.displayStyle = .rich
  · have valid := valid_of_stop? going
    rw [View.stop?_of_rich rich] at going
    rw [ofPlan?_eq base first (Plan.numbers_of_valid valid) rich, going]
    rfl
  · exact ofPlan?_of_not_rich rich _

theorem add_of_going (stopless : View.stop? base first options diagnostic = none)
    (going : report.failure = none) (h : report.emitter.Accepts) :
    (add (base.numberedFrom first) options theme report diagnostic machine).report.failure =
        none ∧
      (add (base.numberedFrom first) options theme report diagnostic machine).fault =
        (View.steps (base.numberedFrom first) options diagnostic).findSome?
          (ofStep? machine (Report.pencil options theme diagnostic)) := by
  have unfailing : ∀ failure,
      Step.fail failure ∉ View.steps (base.numberedFrom first) options diagnostic :=
    View.fail_not_mem_steps (valid_of_stop? stopless)
  have drawn := perform_of_accepts machine (Report.pencil options theme diagnostic) going h
    unfailing
  rw [add, ofPlan?_of_stop? stopless]
  simp only
  split
  · rename_i complete
    rw [Drawing.isComplete, Bool.and_eq_true] at complete
    have intact := Option.isNone_iff_eq_none.mp complete.2
    exact ⟨drawn.1, intact.symm.trans drawn.2⟩
  · exact drawn

/-- With valid labels nothing is rejected, and the only number that can be too long counts something
in a file that is too long itself. -/
theorem add_of_valid (valid : ∀ label ∈ diagnostic.labels, label.IsValid base)
    (going : report.failure = none) (h : report.emitter.Accepts) :
    (add base.lookup options theme report diagnostic machine).report.failure = none ∧
      ∀ fault, (add base.lookup options theme report diagnostic machine).fault = some fault →
        IsOverflow fault ∨ fault = .longNumber ∧ ¬ base.HasShortNumbers := by
  rw [← FileBase.numberedFrom_one]
  cases stopped : View.stop? base 1 options diagnostic with
  | none =>
      have drawn := @add_of_going machine base 1 options theme report diagnostic stopped going h
      refine ⟨drawn.1, ?_⟩
      intro fault fails
      rw [drawn.2] at fails
      exact isOverflow_or_longNumber valid fails
  | some raised =>
      have long := View.longNumber_of_stop? valid stopped
      rw [add_of_stop? (Plan.numbers_of_valid valid) stopped, long.1]
      refine ⟨going, ?_⟩
      rintro _ ⟨⟩
      exact Or.inr ⟨rfl, long.2⟩

/-!
# Drawing one diagnostic
-/

/-- A rejected label is raised in the same way in every view, and nothing is written. Without one,
what ends the drawing is the first step with a fault. -/
theorem add_exact (machine : Machine) (base : FileBase) (options : Options) (theme : Theme)
    (emitter : Emitter) (diagnostic : Diagnostic)
    (numbers : ∀ label ∈ diagnostic.labels, label.file.whole?.isSome = true)
    (accepts : emitter.Accepts) :
    let drawing := add base.lookup options theme { emitter } diagnostic machine
    let rejected := diagnostic.labels.findSome? fun label => label.rejection? base
    let stop := View.stop? base 1 options diagnostic
    (rejected.isSome = true ↔ ∃ label ∈ diagnostic.labels, ¬ label.IsValid base) ∧
      (stop.isSome = true ↔ rejected.isSome = true ∨
        options.displayStyle = .rich ∧
          ∃ label ∈ diagnostic.labels, label.isCounted base 1 = false) ∧
      (base.HasShortNumbers → stop = rejected.map Failure.raised) ∧
      (∀ raised, stop = some raised → drawing = .ofRaised { emitter } raised) ∧
      (stop = none → drawing.report.failure = none ∧
        drawing.fault = (View.steps base.lookup options diagnostic).findSome?
          (ofStep? machine (Report.pencil options theme diagnostic))) ∧
      (stop = none → ∀ fault, drawing.fault = some fault →
        IsOverflow fault ∨ fault = .longNumber ∧ ¬ base.HasShortNumbers) := by
  intro drawing rejected stop
  have invalid : rejected.isSome = true ↔ ∃ label ∈ diagnostic.labels, ¬ label.IsValid base := by
    simp only [rejected, List.findSome?_isSome_iff, View.isSome_rejection?_iff]
  have drawn : stop = none → drawing.report.failure = none ∧
      drawing.fault = (View.steps base.lookup options diagnostic).findSome?
        (ofStep? machine (Report.pencil options theme diagnostic)) :=
    fun stopless => add_of_going stopless rfl accepts
  refine ⟨invalid, ?_, ?_, ?_, drawn, ?_⟩
  · rw [invalid]
    exact View.isSome_stop?_iff
  · intro short
    exact View.stop?_of_counted options fun _ _ valid => short.isCounted valid
  · intro raised stopped
    exact add_of_stop? numbers stopped
  · intro stopless
    exact (add_of_valid (valid_of_stop? stopless) rfl accepts).2

theorem add_exact_letters :
    (∀ label ∈ Letters.diagnostic.labels, label.file.whole?.isSome = true) ∧
      ({ kind := .plain } : Emitter).Accepts ∧
      View.stop? Letters.base 1 {} Letters.diagnostic = none ∧
      (add Letters.base.lookup {} .noColor { emitter := { kind := .plain } }
        Letters.diagnostic).report.failure = none := by
  have numbers : ∀ label ∈ Letters.diagnostic.labels, label.file.whole?.isSome = true := by
    decide
  have accepts : ({ kind := .plain } : Emitter).Accepts := fun _ _ _ => rfl
  have stopless : View.stop? Letters.base 1 {} Letters.diagnostic = none := by decide +kernel
  have exact := add_exact {} Letters.base {} .noColor { kind := .plain } Letters.diagnostic numbers
    accepts
  exact ⟨numbers, accepts, stopless, (exact.2.2.2.2.1 stopless).1⟩

/-- A label that ends far behind its file. -/
def Letters.far : Label :=
  ⟨.primary, .int 0, 0, Nat.pow 10 Digits.limit, "far", Nat.zero_le _, by decide⟩

/-- A tab of the second line of the letters is drawn as more blanks than a text can have, and a label
with an end that is too long to be written is not reported as one that ends behind its file. -/
theorem add_faults_letters :
    (∀ label ∈ Letters.diagnostic.labels, label.IsValid Letters.base) ∧
      (add Letters.base.lookup { tabWidth := Nat.pow 10 30 } .noColor
        { emitter := { kind := .plain } } Letters.diagnostic).fault = some .uncountable ∧
      Letters.far.rejection? Letters.base =
        some (.indexTooLarge (Nat.pow 10 Digits.limit) 20) ∧
      add Letters.base.lookup {} .noColor { emitter := { kind := .plain } }
          { Letters.diagnostic with labels := [Letters.far] } =
        { report := { emitter := { kind := .plain } }, fault := some .longNumber } := by
  refine ⟨Letters.valid, by decide +kernel, by decide +kernel, ?_⟩
  have numbers : ∀ label ∈ [Letters.far], label.file.whole?.isSome = true := by decide
  have stopped : View.stop? Letters.base 1 {} { Letters.diagnostic with labels := [Letters.far] } =
      some (.fault .longNumber) := by decide +kernel
  exact add_of_stop? numbers stopped

end Overflow
end SourceReport

import SourceReport.Proofs.AnySinks
import SourceReport.Proofs.Independence

/-!
# Sinks with a limit

A sink for a limited number of characters gets the beginning of what an unlimited one gets. The
report fails exactly if that is more than the limit, and then with the first write that would pass
it. Otherwise the limit makes no difference.
-/

namespace SourceReport
namespace Sink

/-- A sink that accepts a write if the total stays within the limit. -/
def HasLimit (sink : Sink) (limit : Nat) : Prop :=
  ∀ written calls text,
    sink.accepts written calls text = decide (written.length + text.length ≤ limit)

variable {sink : Sink} {limit : Nat}

theorem accepted_writeAll (accepts : ∀ written calls text, sink.accepts written calls text = true)
    (texts : List String) : (sink.writeAll texts).2 = true := by
  induction texts generalizing sink with
  | nil => rfl
  | cons text rest ih =>
      rw [writeAll_cons_of_accepted (accepts sink.written sink.calls text)]
      exact ih accepts

/-- Every text is accepted if and only if all of them together are within the limit. -/
theorem accepted_writeAll_iff (limited : sink.HasLimit limit)
    (within : sink.written.length ≤ limit) (texts : List String) :
    (sink.writeAll texts).2 = true ↔
      sink.written.length + (String.join texts).length ≤ limit := by
  induction texts generalizing sink with
  | nil => exact ⟨fun _ => within, fun _ => rfl⟩
  | cons text rest ih =>
      have answer : (sink.write text).2 = decide (sink.written.length + text.length ≤ limit) :=
        limited sink.written sink.calls text
      have total : sink.written.length + (String.join (text :: rest)).length =
          sink.written.length + text.length + (String.join rest).length := by
        rw [String.join_cons, String.length_append, Nat.add_assoc]
      rw [total]
      by_cases fits : sink.written.length + text.length ≤ limit
      · have accepted : (sink.write text).2 = true := answer.trans (decide_eq_true fits)
        have next : (sink.write text).1.HasLimit limit := limited
        have length : (sink.write text).1.written.length = sink.written.length + text.length := by
          rw [Emitter.written_write, if_pos accepted, String.length_append]
        have others := ih next (length.trans_le fits)
        rw [length] at others
        rw [writeAll_cons_of_accepted accepted]
        exact others
      · have refused : (sink.write text).2 = false := answer.trans (decide_eq_false fits)
        have above : ¬ sink.written.length + text.length + (String.join rest).length ≤ limit :=
          fun h => fits ((Nat.le_add_right _ _).trans h)
        rw [writeAll_cons_of_refused refused]
        exact iff_of_false Bool.false_ne_true above

/-- A sink for so many characters that has got nothing yet. -/
def limitedTo (limit : Nat) (reason : String) : Sink :=
  { ofCharacters limit with reason }

theorem accepted_limitedTo_iff (limit : Nat) (reason : String) (texts : List String) :
    ((limitedTo limit reason).writeAll texts).2 = true ↔ (String.join texts).length ≤ limit := by
  have limited : (limitedTo limit reason).HasLimit limit := fun _ _ _ => rfl
  have total : (String.join texts).length =
      (limitedTo limit reason).written.length + (String.join texts).length :=
    (Nat.zero_add _).symm
  rw [total]
  exact accepted_writeAll_iff limited (Nat.zero_le limit) texts

theorem writeAll_of_length_le {texts : List String} (h : (String.join texts).length ≤ limit)
    (reason : String) :
    ((limitedTo limit reason).writeAll texts).1.written = String.join texts ∧
      ((limitedTo limit reason).writeAll texts).1.calls = texts.length := by
  rcases writeAll_of_accepted ((accepted_limitedTo_iff limit reason texts).mpr h) with
    ⟨written, calls⟩
  exact ⟨written.trans String.empty_append, calls.trans (Nat.zero_add _)⟩

theorem writeAll_of_lt_length {texts : List String} (h : limit < (String.join texts).length)
    (reason : String) :
    ∃ accepted refused others, texts = accepted ++ refused :: others ∧
      ((limitedTo limit reason).writeAll texts).1.written = String.join accepted ∧
      ((limitedTo limit reason).writeAll texts).1.calls = accepted.length + 1 ∧
      limit < (String.join accepted).length + refused.length := by
  have refusal : ((limitedTo limit reason).writeAll texts).2 = false := by
    rw [Bool.eq_false_iff, ne_eq, accepted_limitedTo_iff]
    exact Nat.not_le.mpr h
  rcases writeAll_of_refused refusal with ⟨accepted, refused, others, parts, written, calls, answer⟩
  have limited : (limitedTo limit reason).HasLimit limit := fun _ _ _ => rfl
  have begun : (limitedTo limit reason).written ++ String.join accepted = String.join accepted :=
    String.empty_append
  rw [limited, begun] at answer
  exact ⟨accepted, refused, others, parts, written.trans begun,
    calls.trans (congrArg (· + 1) (Nat.zero_add _)), Nat.lt_of_not_le (of_decide_eq_false answer)⟩

end Sink

namespace Overflow

def Drawing.sink (drawing : Drawing) : Sink :=
  drawing.report.emitter.sink

/-!
# Drawings on any sink
-/

variable {machine : Machine} {lookup : Lookup} {options : Options} {theme : Theme}

/-- The texts that diagnostics make an emitter put on its sink. -/
def textsOf (machine : Machine) (lookup : Lookup) (options : Options) (theme : Theme)
    (kind : EmitterKind) (diagnostics : List Diagnostic) : List String :=
  kind.texts .plain (Course.ofDiagnostics machine lookup options theme diagnostics).events

/-- A drawing puts its texts on its sink, one after another. What it ends with depends on nothing
but whether one of them is refused. -/
theorem sink_emitAll (kind : EmitterKind) (sink : Sink) (diagnostics : List Diagnostic) :
    let drawing := emitAll lookup options theme { kind, sink } diagnostics machine
    let course := Course.ofDiagnostics machine lookup options theme diagnostics
    let tried := sink.writeAll (textsOf machine lookup options theme kind diagnostics)
    drawing.sink = tried.1 ∧
      drawing.report.failure = (if tried.2 then course.failure else some (.refused sink.reason)) ∧
      drawing.fault = (if tried.2 then course.fault else none) ∧
      (tried.2 = true → drawing.report.count = course.count) := by
  intro drawing course tried
  have drawn : drawing.Follows { emitter := { kind, sink } } course := follows_emitAll _ diagnostics
  have puts := Emitter.puts_run { kind, sink } course.events
  have refusal : (({ kind, sink } : Emitter).run course.events).2 =
      if tried.2 then none else some (.refused sink.reason) := puts.failure_eq
  have written : drawing.sink = tried.1 := by
    rw [Drawing.sink, drawn.emitter_eq]
    exact puts.sink_eq
  have failure := drawn.failure_eq
  have fault := drawn.fault_eq
  rw [refusal] at failure fault
  cases accepted : tried.2 with
  | true =>
      rw [accepted] at failure fault refusal
      have count := drawn.count_eq refusal
      rw [Nat.zero_add] at count
      exact ⟨written, failure, fault, fun _ => count⟩
  | false =>
      rw [accepted] at failure fault
      exact ⟨written, failure, fault, nofun⟩

/-!
# Drawings within a limit
-/

/-- How a drawing on a sink with a limit ends, beside the one on a sink without. -/
structure Drawing.IsLimited (drawing whole : Drawing) (limit : Nat) (reason : String) : Prop where
  failure_eq : drawing.report.failure =
    if limit < whole.sink.written.length then some (.refused reason) else whole.report.failure
  fault_eq : drawing.fault = if limit < whole.sink.written.length then none else whole.fault
  complete : whole.sink.written.length ≤ limit →
    drawing.sink.written = whole.sink.written ∧ drawing.sink.calls = whole.sink.calls ∧
      drawing.report.count = whole.report.count
  /-- Both put the same texts. The first one that would pass the limit is the last one that is
  tried. -/
  exists_texts : ∃ texts, String.join texts = whole.sink.written ∧
    texts.length = whole.sink.calls ∧
      (limit < whole.sink.written.length →
        ∃ accepted refused others, texts = accepted ++ refused :: others ∧
          drawing.sink.written = String.join accepted ∧
          drawing.sink.calls = accepted.length + 1 ∧
          limit < drawing.sink.written.length + refused.length)
  isPrefix_written : drawing.sink.written.toList <+: whole.sink.written.toList

/-- A sink without a limit gets all texts. -/
theorem sink_unlimited (kind : EmitterKind) (diagnostics : List Diagnostic) :
    let whole := emitAll lookup options theme { kind } diagnostics machine
    let texts := textsOf machine lookup options theme kind diagnostics
    whole.sink.written = String.join texts ∧ whole.sink.calls = texts.length := by
  intro whole texts
  have accepted : (Sink.unlimited.writeAll texts).2 = true :=
    Sink.accepted_writeAll (fun _ _ _ => rfl) texts
  rcases Sink.writeAll_of_accepted accepted with ⟨written, calls⟩
  have sink : whole.sink = (Sink.unlimited.writeAll texts).1 :=
    (sink_emitAll kind Sink.unlimited diagnostics).1
  rw [sink]
  exact ⟨written.trans String.empty_append, calls.trans (Nat.zero_add texts.length)⟩

theorem isLimited_emitAll (kind : EmitterKind) (limit : Nat) (reason : String)
    (diagnostics : List Diagnostic) :
    (emitAll lookup options theme { kind, sink := .limitedTo limit reason } diagnostics
        machine).IsLimited
      (emitAll lookup options theme { kind } diagnostics machine) limit reason := by
  let texts := textsOf machine lookup options theme kind diagnostics
  let whole := emitAll lookup options theme { kind } diagnostics machine
  have ends : whole.Runs { emitter := { kind } }
      (Course.ofDiagnostics machine lookup options theme diagnostics) := runs_kind kind diagnostics
  have all : whole.sink.written = String.join texts ∧ whole.sink.calls = texts.length :=
    sink_unlimited kind diagnostics
  have accepted : ((Sink.limitedTo limit reason).writeAll texts).2 = true ↔
      whole.sink.written.length ≤ limit := by
    rw [all.1]
    exact Sink.accepted_limitedTo_iff limit reason texts
  rcases @sink_emitAll machine lookup options theme kind (.limitedTo limit reason) diagnostics with
    ⟨sink, failure, fault, count⟩
  -- Both sinks are offered the same texts, so all that matters is whether these fit.
  rcases Nat.lt_or_ge limit whole.sink.written.length with above | within
  · have refused := mt accepted.mp (Nat.not_le.mpr above)
    rw [if_neg refused] at failure fault
    have cut := above
    rw [all.1] at cut
    rcases Sink.writeAll_of_lt_length cut reason with
      ⟨front, last, others, parts, written, calls, passed⟩
    rw [← sink] at written calls
    rw [← written] at passed
    refine ⟨?_, ?_, fun within => absurd above (Nat.not_lt.mpr within), ?_, ?_⟩
    · rw [if_pos above, failure]
      rfl
    · rw [if_pos above, fault]
    · exact ⟨texts, all.1.symm, all.2.symm, fun _ =>
        ⟨front, last, others, parts, written, calls, passed⟩⟩
    · rw [written, all.1, parts, String.join_append, String.toList_append]
      exact List.prefix_append _ _
  · have unrefused := Nat.not_lt.mpr within
    rw [if_pos (accepted.mpr within)] at failure fault
    have fits := within
    rw [all.1] at fits
    rcases Sink.writeAll_of_length_le fits reason with ⟨written, calls⟩
    rw [← sink, ← all.1] at written
    rw [← sink, ← all.2] at calls
    refine ⟨?_, ?_, fun _ => ⟨written, calls, ?_⟩, ?_, ?_⟩
    · rw [if_neg unrefused, ends.failure_eq, failure]
    · rw [if_neg unrefused, ends.fault_eq, fault]
    · rw [ends.count_eq, count (accepted.mpr within), Nat.zero_add]
    · exact ⟨texts, all.1.symm, all.2.symm, fun above => absurd above unrefused⟩
    · exact ⟨[], (List.append_nil _).trans (congrArg String.toList written)⟩

/-- Nothing but a refusal fails where every label is valid, wherever the numbers of lines begin. -/
theorem failure_emitAll {base : FileBase} {first : Int} (kind : EmitterKind)
    {diagnostics : List Diagnostic}
    (valid : ∀ diagnostic ∈ diagnostics, ∀ label ∈ diagnostic.labels, label.IsValid base) :
    (emitAll (base.numberedFrom first) options theme { kind } diagnostics machine).report.failure =
      none := by
  rw [(runs_kind kind diagnostics).failure_eq, (Course.ends_ofDiagnostics diagnostics).1,
    Option.bind_eq_none_iff]
  intro diagnostic stopped
  have member : diagnostic ∈ diagnostics := List.mem_of_find?_eq_some stopped
  have unfailing : ∀ failure,
      Step.fail failure ∉ View.steps (base.numberedFrom first) options diagnostic :=
    View.fail_not_mem_steps (valid diagnostic member)
  rw [Course.ofDiagnostic]
  cases ofPlan? (base.numberedFrom first) options diagnostic with
  | some fault => rfl
  | none =>
      simp only [Course.ofSteps_eq _ unfailing]
      split
      · rfl
      · rfl

theorem length_written (kind : EmitterKind) (diagnostics : List Diagnostic) :
    (emitAll lookup options theme { kind } diagnostics machine).sink.written.length =
      (kind.output .plain
        (Course.ofDiagnostics machine lookup options theme diagnostics).events).length := by
  rw [← toList_written, String.length_toList]
  rfl

/-!
# Reports within a limit
-/

/-- On a sink with a limit a report is cut, and on files whose labels are valid it fails for no
other reason. There the only fault is a text or a number that is too long. -/
theorem limited_exact (machine : Machine) (lookup : Lookup) (options : Options) (theme : Theme)
    (kind : EmitterKind) (limit : Nat) (reason : String) (diagnostics : List Diagnostic) :
    let whole := emitAll lookup options theme { kind } diagnostics machine
    let drawing :=
      emitAll lookup options theme { kind, sink := .limitedTo limit reason } diagnostics machine
    drawing.IsLimited whole limit reason ∧
      (∀ (base : FileBase) (first : Int), lookup = base.numberedFrom first →
        (∀ diagnostic ∈ diagnostics, ∀ label ∈ diagnostic.labels, label.IsValid base) →
          whole.report.failure = none) ∧
      ∀ base : FileBase, lookup = base.lookup →
        (∀ diagnostic ∈ diagnostics, ∀ label ∈ diagnostic.labels, label.IsValid base) →
          ∀ fault, whole.fault = some fault →
            IsOverflow fault ∨ fault = .longNumber ∧ ¬ base.HasShortNumbers := by
  intro whole drawing
  refine ⟨isLimited_emitAll kind limit reason diagnostics, ?_, ?_⟩
  · rintro base first rfl valid
    exact failure_emitAll kind valid
  · rintro base rfl valid
    have ends : whole.fault =
        (Course.ofDiagnostics machine base.lookup options theme diagnostics).fault :=
      (runs_kind kind diagnostics).fault_eq
    rw [ends]
    exact (Course.ofDiagnostics_of_valid valid).2

theorem limited_letters :
    (∀ diagnostic ∈ [Letters.unlabeled, Letters.diagnostic], ∀ label ∈ diagnostic.labels,
        label.IsValid Letters.base) ∧
      let whole := emitAll (Letters.base.numberedFrom 1) {} .noColor { kind := .markup }
        [Letters.unlabeled, Letters.diagnostic]
      let drawing := emitAll (Letters.base.numberedFrom 1) {} .noColor
        { kind := .markup, sink := .limitedTo 80 "disk full" }
        [Letters.unlabeled, Letters.diagnostic]
      whole.report.failure = none ∧ drawing.report.failure = some (.refused "disk full") := by
  have valid : ∀ diagnostic ∈ [Letters.unlabeled, Letters.diagnostic],
      ∀ label ∈ diagnostic.labels, label.IsValid Letters.base := by
    decide +kernel
  have limited := limited_exact {} (Letters.base.numberedFrom 1) {} .noColor .markup 80 "disk full"
    [Letters.unlabeled, Letters.diagnostic]
  have above : 80 < (emitAll (Letters.base.numberedFrom 1) {} .noColor { kind := .markup }
      [Letters.unlabeled, Letters.diagnostic]).sink.written.length := by
    rw [length_written]
    decide +kernel
  have failure := limited.1.failure_eq
  rw [if_pos above] at failure
  exact ⟨valid, limited.2.1 Letters.base 1 rfl valid, failure⟩

/-- A tab is drawn as more blanks than a text can have. The sink refuses nothing, but the diagnostic
is not drawn. -/
theorem limited_interrupted_letters :
    let drawing := emitAll (Letters.base.numberedFrom 1) { tabWidth := Nat.pow 10 30 } .noColor
      { kind := .plain, sink := .limitedTo 1000 "disk full" } [Letters.diagnostic]
    (∀ label ∈ Letters.diagnostic.labels, label.IsValid Letters.base) ∧
      drawing.report.failure = none ∧ drawing.fault = some .uncountable ∧
        drawing.report.count = 0 := by
  have limited := @isLimited_emitAll {} (Letters.base.numberedFrom 1)
    { tabWidth := Nat.pow 10 30 } .noColor .plain 1000 "disk full" [Letters.diagnostic]
  have within : (emitAll (Letters.base.numberedFrom 1) { tabWidth := Nat.pow 10 30 } .noColor
      { kind := .plain } [Letters.diagnostic]).sink.written.length ≤ 1000 := by
    rw [length_written]
    decide +kernel
  have failure := limited.failure_eq
  have fault := limited.fault_eq
  have count := (limited.complete within).2.2
  rw [if_neg (Nat.not_lt.mpr within)] at failure fault
  refine ⟨Letters.valid, failure.trans ?_, fault.trans ?_, count.trans ?_⟩
  · decide +kernel
  · decide +kernel
  · decide +kernel

end Overflow
end SourceReport

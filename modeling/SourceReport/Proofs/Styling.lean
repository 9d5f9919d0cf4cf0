import SourceReport.Proofs.ClosedRows
import SourceReport.Proofs.Markup
import SourceReport.Theme

/-!
# Styling

Every kind of emitter draws the same course, so the output of one is that of another in a different
form: markup without its tags is the escaped plain output, and without styles escapes and debug tags
add nothing to it.
-/

namespace SourceReport
namespace Overflow

variable (machine : Machine) (lookup : Lookup) (options : Options) (theme : Theme)

/-- What an emitter has written when diagnostics are drawn through it. -/
def written (kind : EmitterKind) (diagnostics : List Diagnostic) : String :=
  (emitAll lookup options theme { kind } diagnostics machine).report.emitter.sink.written

variable {machine lookup options theme}

theorem runs_kind (kind : EmitterKind) (diagnostics : List Diagnostic) :
    (emitAll lookup options theme { kind } diagnostics machine).Runs { emitter := { kind } }
      (Course.ofDiagnostics machine lookup options theme diagnostics) := by
  have accepts : ({ kind } : Emitter).Accepts := fun _ _ _ => rfl
  exact runs_emitAll accepts diagnostics

theorem toList_written (kind : EmitterKind) (diagnostics : List Diagnostic) :
    (written machine lookup options theme kind diagnostics).toList =
      kind.output .plain (Course.ofDiagnostics machine lookup options theme diagnostics).events := by
  rw [written, (runs_kind kind diagnostics).emitter_eq]
  exact Emitter.written_run kind _

/-- The first diagnostics are drawn first. -/
theorem isPrefix_written (kind : EmitterKind) {front diagnostics : List Diagnostic}
    (h : front <+: diagnostics) :
    (written machine lookup options theme kind front).toList <+:
      (written machine lookup options theme kind diagnostics).toList := by
  rcases @isPrefix_events lookup options theme machine front diagnostics h with ⟨rest, whole⟩
  rw [toList_written, toList_written, ← whole, EmitterKind.output_append]
  exact List.prefix_append _ _

/-!
# Markup
-/

theorem withoutTags_written (diagnostics : List Diagnostic) :
    Markup.withoutTags (written machine lookup options theme .markup diagnostics) =
      escapeMarkup (written machine lookup options theme .plain diagnostics) := by
  have shows := Markup.Shows.output .plain
    (Course.ofDiagnostics machine lookup options theme diagnostics).events
  rw [Markup.withoutTags, escapeMarkup, toList_written, toList_written, shows.read_eq.1,
    EmitterKind.output_plain, List.flatMap_assoc]

/-- Tags open and close spans by turns. A span is left open if a style is still shown. -/
theorem alternate_tags (diagnostics : List Diagnostic) :
    Markup.Alternate false (Markup.tags (written machine lookup options theme .markup diagnostics))
      (!(EmitterKind.markup.shownAfter .plain
        (Course.ofDiagnostics machine lookup options theme diagnostics).events).isPlain) := by
  have shows := Markup.Shows.output .plain
    (Course.ofDiagnostics machine lookup options theme diagnostics).events
  rw [Markup.tags, toList_written]
  exact shows.read_eq.2

/-- No span is left open unless a fault ends the report. -/
theorem alternate_tags_written (diagnostics : List Diagnostic) :
    ∃ isOpen,
      Markup.Alternate false (Markup.tags (written machine lookup options theme .markup diagnostics))
        isOpen ∧
      ((emitAll lookup options theme { kind := .markup } diagnostics machine).fault = none →
        isOpen = false) := by
  refine ⟨_, alternate_tags diagnostics, ?_⟩
  intro intact
  have closed : (Course.ofDiagnostics machine lookup options theme diagnostics).IsClosed theme :=
    Course.isClosed_ofDiagnostics diagnostics
  rw [(runs_kind .markup diagnostics).fault_eq] at intact
  rw [EmitterKind.shownAfter_eq_plain (by decide) (fun _ => rfl) (closed.roleAfter_eq intact)]
  rfl

/-!
# No styles
-/

theorem toList_written_of_plain (unstyled : ∀ role, theme.style role = .plain)
    (kind : EmitterKind) (diagnostics : List Diagnostic) :
    (written machine lookup options theme kind diagnostics).toList =
      ((Course.ofDiagnostics machine lookup options theme diagnostics).events.filterMap
        Event.text?).flatMap fun text => (kind.textOf text).toList := by
  have closed : (Course.ofDiagnostics machine lookup options theme diagnostics).IsClosed theme :=
    Course.isClosed_ofDiagnostics diagnostics
  have plain : ∀ event ∈ (Course.ofDiagnostics machine lookup options theme diagnostics).events,
      event.isPlain = true := by
    intro event member
    have themed := closed.isOf event member
    cases event with
    | write text => rfl
    | reset => rfl
    | set role style =>
        have same : style = theme.style role := themed
        rw [Event.isPlain, same, unstyled]
        rfl
  rw [toList_written, kind.output_of_isPlain plain]

theorem written_of_plain (unstyled : ∀ role, theme.style role = .plain)
    (diagnostics : List Diagnostic) :
    written machine lookup options theme .ansi diagnostics =
        written machine lookup options theme .plain diagnostics ∧
      written machine lookup options theme .debug diagnostics =
        written machine lookup options theme .plain diagnostics ∧
      written machine lookup options theme .markup diagnostics =
        escapeMarkup (written machine lookup options theme .plain diagnostics) := by
  have forms := fun kind =>
    @toList_written_of_plain machine lookup options theme unstyled kind diagnostics
  refine ⟨?_, ?_, ?_⟩
  · apply String.toList_injective
    rw [forms, forms]
    rfl
  · apply String.toList_injective
    rw [forms, forms]
    rfl
  · apply String.toList_injective
    rw [escapeMarkup, String.toList_ofList, forms, forms, List.flatMap_assoc]
    simp only [EmitterKind.textOf, escapeMarkup, String.toList_ofList]

/-!
# Styles and the text
-/

/-- Emitters draw the same whatever their kind, and only what ends the drawing can leave a span open.
With valid labels that is a text or a number which is too long. -/
theorem styling_exact (machine : Machine) (lookup : Lookup) (options : Options) (theme : Theme)
    (diagnostics : List Diagnostic) :
    let drawing := fun kind => emitAll lookup options theme { kind } diagnostics machine
    let text := written machine lookup options theme
    (∀ kind, (drawing kind).report.count = (drawing .plain).report.count ∧
        (drawing kind).report.failure = (drawing .plain).report.failure ∧
        (drawing kind).fault = (drawing .plain).fault) ∧
      Markup.withoutTags (text .markup diagnostics) = escapeMarkup (text .plain diagnostics) ∧
      Markup.unescape (Markup.withoutTags (text .markup diagnostics)) = text .plain diagnostics ∧
      (∀ front, front <+: diagnostics →
        (text .markup front).toList <+: (text .markup diagnostics).toList ∧
        ∃ isOpen, Markup.Alternate false (Markup.tags (text .markup front)) isOpen ∧
          ((emitAll lookup options theme { kind := .markup } front machine).fault = none →
            isOpen = false)) ∧
      ((∀ role, theme.style role = .plain) →
        text .ansi diagnostics = text .plain diagnostics ∧
          text .debug diagnostics = text .plain diagnostics ∧
          text .markup diagnostics = escapeMarkup (text .plain diagnostics)) ∧
      ∀ base : FileBase, lookup = base.lookup →
        (∀ diagnostic ∈ diagnostics, ∀ label ∈ diagnostic.labels, label.IsValid base) →
          ∀ kind, (drawing kind).report.failure = none ∧
            ∀ fault, (drawing kind).fault = some fault →
              IsOverflow fault ∨ fault = .longNumber ∧ ¬ base.HasShortNumbers := by
  intro drawing text
  refine ⟨?_, withoutTags_written diagnostics, ?_, ?_, ?_, ?_⟩
  · intro kind
    have runs := @runs_kind machine lookup options theme kind diagnostics
    have plain := @runs_kind machine lookup options theme .plain diagnostics
    exact ⟨runs.count_eq.trans plain.count_eq.symm, runs.failure_eq.trans plain.failure_eq.symm,
      runs.fault_eq.trans plain.fault_eq.symm⟩
  · show Markup.unescape
      (Markup.withoutTags (written machine lookup options theme .markup diagnostics)) = _
    rw [withoutTags_written, Markup.unescape_escapeMarkup]
  · intro front first
    exact ⟨isPrefix_written .markup first, alternate_tags_written front⟩
  · intro unstyled
    exact written_of_plain unstyled diagnostics
  · rintro base rfl valid kind
    have runs := @runs_kind machine base.lookup options theme kind diagnostics
    rw [runs.failure_eq, runs.fault_eq]
    exact Course.ofDiagnostics_of_valid valid

theorem styling_exact_letters :
    Markup.unescape (Markup.withoutTags
        (written {} Letters.base.lookup {} .standardColor .markup [Letters.diagnostic])) =
          written {} Letters.base.lookup {} .standardColor .plain [Letters.diagnostic] ∧
      Markup.Alternate false (Markup.tags
        (written {} Letters.base.lookup {} .standardColor .markup [Letters.diagnostic])) false ∧
      (∀ role, Theme.noColor.style role = .plain) ∧
      written {} Letters.base.lookup {} .noColor .ansi [Letters.diagnostic] =
        written {} Letters.base.lookup {} .noColor .plain [Letters.diagnostic] := by
  have colored := styling_exact {} Letters.base.lookup {} .standardColor [Letters.diagnostic]
  have uncolored := styling_exact {} Letters.base.lookup {} .noColor [Letters.diagnostic]
  rcases colored.2.2.2.1 [Letters.diagnostic] (List.prefix_refl _) with ⟨_, isOpen, spans, closed⟩
  have intact : (emitAll Letters.base.lookup {} .standardColor { kind := .markup }
      [Letters.diagnostic]).fault = none := by
    decide +kernel
  rw [closed intact] at spans
  exact ⟨colored.2.2.1, spans, Theme.style_noColor,
    (uncolored.2.2.2.2.1 Theme.style_noColor).1⟩

/-- A tab of the second line is drawn within the span of a label, as more blanks than a text can
have. The span is not closed. -/
theorem styling_interrupted_letters :
    (∀ label ∈ Letters.diagnostic.labels, label.IsValid Letters.base) ∧
      ¬ Markup.Alternate false (Markup.tags (written {} Letters.base.lookup
        { tabWidth := Nat.pow 10 30 } .standardColor .markup [Letters.diagnostic])) false := by
  refine ⟨Letters.valid, ?_⟩
  intro closed
  have shown : (EmitterKind.markup.shownAfter .plain (Course.ofDiagnostics {} Letters.base.lookup
      { tabWidth := Nat.pow 10 30 } .standardColor [Letters.diagnostic]).events).isPlain =
        false := by
    decide +kernel
  have spans := @alternate_tags {} Letters.base.lookup { tabWidth := Nat.pow 10 30 } .standardColor
    [Letters.diagnostic]
  rw [shown] at spans
  cases closed.last_eq.trans spans.last_eq.symm

end Overflow
end SourceReport

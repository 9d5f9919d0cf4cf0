import SourceReport.Proofs.Enclosures
import SourceReport.Proofs.Styling

/-!
# Spans in reports

Within a report only the message of a header and the labels of one diagnostic follow another role
without a reset. So a text is in the span of another role only if a theme gives the same style to
two labels, or to a header and its message. The colored theme does so for labels that offer help.
-/

namespace SourceReport
namespace Event

/-- Events that break off set no other roles than before, and in the same order. -/
theorem IsOrderly.of_prefix {precedes : Role → Role → Prop} {role : Option Role}
    {front events : List Event} (h : IsOrderly precedes role events) (begins : front <+: events) :
    IsOrderly precedes role front := by
  induction front generalizing role events with
  | nil => trivial
  | cons event rest ih =>
      rcases begins with ⟨back, rfl⟩
      have others : rest <+: rest ++ back := List.prefix_append rest back
      cases event with
      | write piece => exact @ih role (rest ++ back) h others
      | set next style => exact ⟨h.1, ih h.2 others⟩
      | reset => exact @ih none (rest ++ back) h others

end Event

/-!
# Courses
-/

namespace Overflow
namespace Course

open Event

theorem isOrderly_ofSteps (machine : Machine) (pencil : Pencil) (steps : List Step) :
    IsOrderly (Role.Precedes pencil.severity) none (ofSteps machine pencil steps).events := by
  induction steps with
  | nil => trivial
  | cons step rest ih =>
      cases step with
      | trace written => exact ih
      | fail failure =>
          rw [ofSteps, events_ofRaised]
          trivial
      | row padding row =>
          have drawn : pencil.Passes none (pencil.row padding row) none :=
            Pencil.passes_row padding row
          rw [ofSteps]
          cases ofRow? machine pencil padding row with
          | some fault => exact drawn.isOrderly.of_prefix (List.takeWhile_prefix _)
          | none =>
              apply drawn.isOrderly.append
              rw [drawn.roleAfter_eq]
              exact ih

variable {machine : Machine} {lookup : Lookup} {options : Options} {theme : Theme}

theorem isOrderly_ofDiagnostic (diagnostic : Diagnostic) :
    IsOrderly (Role.Precedes diagnostic.severity) none
      (ofDiagnostic machine lookup options theme diagnostic).events := by
  have drawn := isOrderly_ofSteps machine (Report.pencil options theme diagnostic)
    (View.steps lookup options diagnostic)
  rw [ofDiagnostic]
  cases ofPlan? lookup options diagnostic with
  | some fault => trivial
  | none =>
      simp only
      split
      · exact drawn
      · exact drawn

theorem isOrderly_ofDiagnostics (diagnostics : List Diagnostic) :
    IsOrderly (fun before next =>
        ∃ diagnostic ∈ diagnostics, Role.Precedes diagnostic.severity before next) none
      (ofDiagnostics machine lookup options theme diagnostics).events := by
  induction diagnostics with
  | nil => trivial
  | cons diagnostic rest ih =>
      have first : IsOrderly (fun before next =>
          ∃ other ∈ diagnostic :: rest, Role.Precedes other.severity before next) none
          (ofDiagnostic machine lookup options theme diagnostic).events :=
        (isOrderly_ofDiagnostic diagnostic).mono fun before next precedes =>
          ⟨diagnostic, List.mem_cons_self, precedes⟩
      simp only [ofDiagnostics]
      split
      · rename_i complete
        have closed : (ofDiagnostic machine lookup options theme diagnostic).IsClosed theme :=
          isClosed_ofDiagnostic diagnostic
        apply first.append
        rw [closed.roleAfter_eq (isComplete_iff.mp complete).2]
        refine ih.mono fun before next precedes => ?_
        rcases precedes with ⟨other, member, precedes⟩
        exact ⟨other, List.mem_cons_of_mem diagnostic member, precedes⟩
      · exact first

end Course
end Overflow

/-!
# Spans of roles that precede
-/

theorem Role.Precedes.trans {severity other : Severity} {first second third : Role}
    (left : Precedes severity first second) (right : Precedes other second third) :
    Precedes severity first third := by
  cases left with
  | message => cases right
  | label style middle =>
      cases right with
      | label _ next => exact .label style next

namespace Enclosure

open Event

/-- Both roles of a span have its style, and the role that the span is named for is that of the text
or one that may precede it. -/
structure IsOf (enclosure : Enclosure) (theme : Theme) (precedes : Role → Role → Prop) : Prop where
  own_eq : theme.style enclosure.own = enclosure.style
  span_eq : theme.style enclosure.span = enclosure.style
  near : enclosure.span = enclosure.own ∨ precedes enclosure.span enclosure.own

variable {theme : Theme} {precedes : Role → Role → Prop}

theorem isOf_new (role : Role) (styled : theme.style role ≠ .plain) :
    IsOf ⟨role, role, theme.style role, styled⟩ theme precedes :=
  ⟨rfl, rfl, .inl rfl⟩

/-- The span that is open after a role is set, if the one before is that of the role before. -/
theorem isOf_set
    (trans : ∀ first second third, precedes first second → precedes second third →
      precedes first third)
    {role : Option Role} {enclosure : Option Enclosure}
    (tracked : ∀ one, enclosure = some one → role = some one.own ∧ one.IsOf theme precedes)
    {next : Role} (orderly : ∀ before, role = some before → precedes before next) :
    ∀ one, set enclosure next (theme.style next) = some one →
      some next = some one.own ∧ one.IsOf theme precedes := by
  intro one opened
  by_cases plain : theme.style next = .plain
  · rw [set_plain enclosure plain] at opened
    cases opened
  · cases enclosure with
    | none =>
        rw [set_none plain] at opened
        cases opened
        exact ⟨rfl, isOf_new next plain⟩
    | some enclosure =>
        by_cases same : enclosure.style = theme.style next
        · -- The span stays open. Its role is that of the last text or precedes it.
          rw [set_same same] at opened
          cases opened
          rcases tracked enclosure rfl with ⟨own, isOf⟩
          have follows := orderly enclosure.own own
          refine ⟨rfl, same.symm, isOf.span_eq, .inr ?_⟩
          rcases isOf.near with equal | before
          · exact equal ▸ follows
          · exact trans _ _ _ before follows
        · rw [set_other plain same] at opened
          cases opened
          exact ⟨rfl, isOf_new next plain⟩

theorem isOf_texts
    (trans : ∀ first second third, precedes first second → precedes second third →
      precedes first third)
    {role : Option Role} {enclosure : Option Enclosure} {events : List Event}
    (themed : ∀ event ∈ events, event.IsOf theme) (orderly : IsOrderly precedes role events)
    (tracked : ∀ one, enclosure = some one → role = some one.own ∧ one.IsOf theme precedes) :
    ∀ text one, (text, some one) ∈ texts enclosure events → one.IsOf theme precedes := by
  induction events generalizing role enclosure with
  | nil =>
      intro text one member
      exact absurd member List.not_mem_nil
  | cons event rest ih =>
      rw [List.forall_mem_cons] at themed
      cases event with
      | write written =>
          intro text one member
          rcases List.mem_cons.mp member with first | member
          · exact (tracked one (Prod.mk.inj first).2.symm).2
          · exact ih themed.2 orderly tracked text one member
      | set next style =>
          have same : style = theme.style next := themed.1
          have opened := isOf_set trans tracked orderly.1
          rw [← same] at opened
          exact ih themed.2 orderly.2 opened
      | reset =>
          apply ih themed.2 orderly
          intro one opened
          cases opened

end Enclosure

/-!
# Reports
-/

/-- In the colored theme labels share a style only if they offer help. -/
theorem Role.Precedes.eq_of_standardColor {severity : Severity} (helpless : severity ≠ .help)
    {before next : Role} (h : Precedes severity before next)
    (same : Theme.standardColor.style before = Theme.standardColor.style next) : before = next := by
  cases h with
  | message => cases severity <;> exact absurd same (by decide)
  | label style next =>
      have primary : Theme.standardColor.label severity .primary ≠
          Theme.standardColor.label severity .secondary := by
        cases severity with
        | help => exact absurd rfl helpless
        | note => decide
        | warning => decide
        | error => decide
        | bug => decide
      cases style with
      | primary =>
          cases next with
          | primary => rfl
          | secondary => exact absurd same primary
      | secondary =>
          cases next with
          | primary => exact absurd same.symm primary
          | secondary => rfl

namespace Overflow

open Enclosure

/-- A text stays in the span of another role only if both share a style and one precedes the
other. -/
theorem isOf_texts_ofDiagnostics (machine : Machine) (lookup : Lookup) (options : Options)
    (theme : Theme) (diagnostics : List Diagnostic) :
    ∀ text one,
      (text, some one) ∈
          texts none (Course.ofDiagnostics machine lookup options theme diagnostics).events →
        one.IsOf theme fun before next =>
          ∃ diagnostic ∈ diagnostics, Role.Precedes diagnostic.severity before next := by
  have closed : (Course.ofDiagnostics machine lookup options theme diagnostics).IsClosed theme :=
    Course.isClosed_ofDiagnostics diagnostics
  apply isOf_texts _ closed.isOf (Course.isOrderly_ofDiagnostics diagnostics)
  · intro one opened
    cases opened
  · rintro first second third ⟨diagnostic, member, left⟩ ⟨_, _, right⟩
    exact ⟨diagnostic, member, left.trans right⟩

theorem spans_exact (sink : Sink) (accepts : ({ kind := .markup, sink } : Emitter).Accepts)
    (empty : sink.written = "") :
    (∀ events : List Event,
      let shown :=
        Markup.characters (({ kind := .markup, sink } : Emitter).run events).1.sink.written
      (texts none events).map (Prod.map id (Option.map own)) = Event.inStyledRoles none events ∧
        shown = characters span (texts none events) ∧
        (shown = characters own (texts none events) ↔
          ∀ text one, (text, some one) ∈ texts none events → text ≠ "" → one.span = one.own)) ∧
      ∀ (machine : Machine) (lookup : Lookup) (options : Options) (theme : Theme)
        (diagnostics : List Diagnostic),
        let drawing := emitAll lookup options theme { kind := .markup, sink } diagnostics machine
        let events := (Course.ofDiagnostics machine lookup options theme diagnostics).events
        drawing.report.emitter = (({ kind := .markup, sink } : Emitter).run events).1 ∧
          (∀ text one, (text, some one) ∈ texts none events → one.span ≠ one.own →
            ∃ diagnostic ∈ diagnostics, Role.Precedes diagnostic.severity one.span one.own ∧
              theme.style one.span = theme.style one.own) ∧
          (theme = .standardColor → (∀ diagnostic ∈ diagnostics, diagnostic.severity ≠ .help) →
            Markup.characters drawing.report.emitter.sink.written =
              characters own (texts none events)) := by
  refine ⟨?_, ?_⟩
  · intro events shown
    have spans : shown = characters span (texts none events) :=
      Markup.characters_run accepts empty events
    refine ⟨map_own_texts none events, spans, ?_⟩
    rw [spans]
    exact characters_own_iff (texts none events)
  · intro machine lookup options theme diagnostics drawing events
    have drawn : drawing.report.emitter = (({ kind := .markup, sink } : Emitter).run events).1 :=
      (runs_emitAll accepts diagnostics).emitter_eq
    have isOf := isOf_texts_ofDiagnostics machine lookup options theme diagnostics
    refine ⟨drawn, ?_, ?_⟩
    · intro text one member other
      rcases (isOf text one member).near.resolve_left other with ⟨diagnostic, among, precedes⟩
      exact ⟨diagnostic, among, precedes,
        (isOf text one member).span_eq.trans (isOf text one member).own_eq.symm⟩
    · intro colored helpless
      rw [drawn, Markup.characters_run accepts empty, characters_own_iff]
      intro text one member _
      have same := (isOf text one member).span_eq.trans (isOf text one member).own_eq.symm
      rcases (isOf text one member).near with equal | ⟨diagnostic, among, precedes⟩
      · exact equal
      · rw [colored] at same
        exact precedes.eq_of_standardColor (helpless diagnostic among) same

theorem spans_exact_letters :
    ({ kind := .markup } : Emitter).Accepts ∧
      Markup.characters (({ kind := .markup } : Emitter).run
        [.set .lineNumber { bold := true }, .set .noteBullet { bold := true }, .write "<", .reset,
          .write "-"]).1.sink.written =
        [('&', some "span class=\"line-number\""), ('l', some "span class=\"line-number\""),
          ('t', some "span class=\"line-number\""), (';', some "span class=\"line-number\""),
          ('-', none)] ∧
      Markup.characters
          (written {} Letters.base.lookup {} .standardColor .markup [Letters.diagnostic]) =
        characters own (texts none
          (Course.ofDiagnostics {} Letters.base.lookup {} .standardColor
            [Letters.diagnostic]).events) := by
  have accepts : ({ kind := .markup } : Emitter).Accepts := fun _ _ _ => rfl
  have exact := spans_exact .unlimited accepts rfl
  have helpless : ∀ diagnostic ∈ [Letters.diagnostic], diagnostic.severity ≠ .help := by
    decide
  refine ⟨accepts, (exact.1 _).2.1.trans (by decide), ?_⟩
  exact (exact.2 {} Letters.base.lookup {} .standardColor [Letters.diagnostic]).2.2 rfl helpless

end Overflow

namespace Letters

/-- A label for one byte, without a message. -/
def byteAt (style : LabelStyle) (start : Nat) : Label where
  style := style
  file := .int 0
  start := start
  stop := start + 1
  message := ""
  start_le_stop := Nat.le_succ start
  message_line := Eq.refl false

/-- Two labels that offer help, for the first and the second character of a line. -/
def hint : Diagnostic where
  severity := .help
  message := "letters"
  labels := [byteAt .primary 2, byteAt .secondary 3]

end Letters

namespace Overflow

open Enclosure

/-- The mark of the secondary label is in the span of the primary label. -/
theorem spans_shared_letters :
    let events :=
      (Course.ofDiagnostics {} Letters.base.lookup {} .standardColor [Letters.hint]).events
    let shown :=
      Markup.characters (written {} Letters.base.lookup {} .standardColor .markup [Letters.hint])
    ("-", some (Role.label .help .secondary)) ∈ Event.inStyledRoles none events ∧
      ('-', some (Role.label .help .primary).tag) ∈ shown ∧
      ('-', some (Role.label .help .secondary).tag) ∉ shown := by
  intro events shown
  have accepts : ({ kind := .markup } : Emitter).Accepts := fun _ _ _ => rfl
  have spans : shown = characters span (texts none events) := by
    have drawn :=
      (@runs_kind {} Letters.base.lookup {} .standardColor .markup [Letters.hint]).emitter_eq
    show Markup.characters (emitAll _ _ _ _ _).report.emitter.sink.written = _
    rw [drawn]
    exact Markup.characters_run accepts rfl events
  have mark : ("-", some ⟨.label .help .primary, .label .help .secondary,
      { foreground := some .cyan }, by decide⟩) ∈ texts none events := by
    decide +kernel
  have unnamed : ∀ text ∈ texts none events,
      text.2.map span ≠ some (Role.label .help .secondary) := by
    decide +kernel
  refine ⟨?_, ?_, ?_⟩
  · have own := List.mem_map_of_mem (f := Prod.map id (Option.map own)) mark
    rwa [map_own_texts] at own
  · rw [spans, mem_characters_iff]
    exact ⟨_, _, mark, by decide, rfl⟩
  · rw [spans, mem_characters_iff]
    rintro ⟨text, one, member, -, named⟩
    exact unnamed _ member (congrArg some named)

end Overflow
end SourceReport

import SourceReport.Proofs.Elision
import SourceReport.Proofs.Reports
import SourceReport.Proofs.Roles

/-!
# Writes

What an emitter writes for events depends on its kind and on the style that is shown, as long as its
sink accepts everything. Where no event sets a style the texts are written as they are.
-/

namespace SourceReport
namespace Action

/-- The text that an action writes. -/
def text? : Action → Option String
  | .put text => some text
  | .become _ => none

/-- The style that is shown after an action. -/
def shown (current : Style) : Action → Style
  | .put _ => current
  | .become style => style

/-- The characters that actions write. -/
def chars (actions : List Action) : List Char :=
  (actions.filterMap text?).flatMap String.toList

theorem chars_put (text : String) : chars [.put text] = text.toList :=
  List.append_nil text.toList

theorem chars_append (front back : List Action) :
    chars (front ++ back) = chars front ++ chars back := by
  rw [chars, List.filterMap_append, List.flatMap_append]
  rfl

end Action

namespace EmitterKind

variable (kind : EmitterKind)

/-- The style that is shown after an event. -/
def shown (current : Style) (event : Event) : Style :=
  (kind.actions current event).foldl Action.shown current

def shownAfter (current : Style) (events : List Event) : Style :=
  events.foldl kind.shown current

/-- The characters that events make an emitter write. -/
def output (current : Style) : List Event → List Char
  | [] => []
  | event :: rest =>
      Action.chars (kind.actions current event) ++ output (kind.shown current event) rest

variable {kind}

theorem output_append (current : Style) (front back : List Event) :
    kind.output current (front ++ back) =
      kind.output current front ++ kind.output (kind.shownAfter current front) back := by
  induction front generalizing current with
  | nil => rfl
  | cons event rest ih =>
      rw [List.cons_append, output, output, ih, List.append_assoc]
      rfl

/-- A plain emitter never shows a style. -/
theorem shownAfter_plain (current : Style) (events : List Event) :
    EmitterKind.plain.shownAfter current events = current := by
  induction events with
  | nil => rfl
  | cons event rest ih => cases event <;> exact ih

theorem foldl_resetActions (kind : EmitterKind) (current : Style) :
    (kind.resetActions current).foldl Action.shown current = .plain := by
  rw [resetActions]
  split
  · assumption
  · rfl

theorem shown_reset (h : kind ≠ .plain) (current : Style) : kind.shown current .reset = .plain := by
  cases kind with
  | plain => exact absurd rfl h
  | ansi => exact foldl_resetActions .ansi current
  | markup => exact foldl_resetActions .markup current
  | debug => exact foldl_resetActions .debug current

theorem setActions_current (kind : EmitterKind) (role : Role) (style : Style) :
    kind.setActions style role style = [] := by
  cases kind with
  | plain => rfl
  | ansi => exact if_pos rfl
  | markup => exact if_pos rfl
  | debug => exact if_pos rfl

/-- Escapes and tags close the style before they open the next one. -/
theorem setActions_eq (h : kind = .ansi ∨ kind = .markup) (current : Style) (role : Role)
    (style : Style) :
    kind.setActions current role style =
      if style = current then []
      else
        kind.resetActions current ++
          (if style = .plain then [] else [.put (kind.opening role style), .become style]) := by
  rcases h with rfl | rfl <;> rfl

theorem shown_set (h : kind ≠ .plain) (current : Style) (role : Role) (style : Style) :
    kind.shown current (.set role style) = style := by
  have switched (switches : kind = .ansi ∨ kind = .markup) :
      (kind.setActions current role style).foldl Action.shown current = style := by
    rw [setActions_eq switches]
    split
    · rename_i same
      exact same.symm
    · rw [List.foldl_append, foldl_resetActions]
      split
      · rename_i plain
        exact plain.symm
      · rfl
  rw [shown, actions]
  cases kind with
  | plain => exact absurd rfl h
  | ansi => exact switched (.inl rfl)
  | markup => exact switched (.inr rfl)
  | debug =>
      rw [setActions]
      split
      · rename_i same
        exact same.symm
      · rfl

/-- No style is shown where no role is set. -/
theorem shownAfter_eq_plain (h : kind ≠ .plain) {role : Option Role} {current : Style}
    {events : List Event} (before : role = none → current = .plain)
    (after : Event.roleAfter role events = none) : kind.shownAfter current events = .plain := by
  induction events generalizing role current with
  | nil => exact before after
  | cons event rest ih =>
      cases event with
      | write text => exact ih before after
      | set next style =>
          have inRole : some next = none → style = .plain := nofun
          rw [shownAfter, List.foldl_cons, shown_set h]
          exact ih inRole after
      | reset =>
          rw [shownAfter, List.foldl_cons, shown_reset h]
          exact ih (fun _ => rfl) after

end EmitterKind

/-!
# Running events
-/

/-- How an emitter leaves another one behind: it shows a style and has written characters. -/
structure Emitter.Leads (before after : Emitter) (style : Style) (chars : List Char) : Prop where
  kind_eq : after.kind = before.kind
  current_eq : after.current = style
  written_eq : after.sink.written.toList = before.sink.written.toList ++ chars

namespace Emitter

variable {emitter : Emitter}

theorem leads_perform (h : emitter.Accepts) (actions : List Action) :
    emitter.Leads (emitter.perform actions).1 (actions.foldl Action.shown emitter.current)
      (Action.chars actions) := by
  induction actions generalizing emitter with
  | nil => exact ⟨rfl, rfl, (List.append_nil _).symm⟩
  | cons action rest ih =>
      cases action with
      | put text =>
          have accepted : emitter.sink.accepts emitter.sink.written emitter.sink.calls text = true :=
            h _ _ _
          have next : ({ emitter with sink := (emitter.sink.write text).1 } : Emitter).Accepts := h
          have drawn := ih next
          rw [perform]
          simp only [Sink.write, accepted, if_true] at drawn ⊢
          refine ⟨drawn.kind_eq, drawn.current_eq, ?_⟩
          rw [drawn.written_eq, String.toList_append, List.append_assoc]
          rfl
      | become style =>
          have next : ({ emitter with current := style } : Emitter).Accepts := h
          exact ⟨(ih next).kind_eq, (ih next).current_eq, (ih next).written_eq⟩

theorem leads_run (h : emitter.Accepts) (events : List Event) :
    emitter.Leads (emitter.run events).1 (emitter.kind.shownAfter emitter.current events)
      (emitter.kind.output emitter.current events) := by
  induction events generalizing emitter with
  | nil => exact ⟨rfl, rfl, (List.append_nil _).symm⟩
  | cons event rest ih =>
      rcases perform_of_accepts h (emitter.kind.actions emitter.current event) with ⟨done, next⟩
      have first := leads_perform h (emitter.kind.actions emitter.current event)
      rw [run, step]
      cases performed : emitter.perform (emitter.kind.actions emitter.current event) with
      | mk after failure =>
          rw [performed] at done next first
          cases done
          have others := ih next
          rw [first.kind_eq, first.current_eq] at others
          refine ⟨others.kind_eq.trans first.kind_eq, others.current_eq, ?_⟩
          rw [others.written_eq, first.written_eq, List.append_assoc]
          rfl

theorem written_run (kind : EmitterKind) (events : List Event) :
    (({ kind } : Emitter).run events).1.sink.written.toList = kind.output .plain events := by
  have accepts : ({ kind } : Emitter).Accepts := fun _ _ _ => rfl
  exact (leads_run accepts events).written_eq

end Emitter

/-!
# Texts
-/

/-- An event that sets no style but the plain one. -/
def Event.isPlain : Event → Bool
  | .write _ => true
  | .set _ style => style.isPlain
  | .reset => true

namespace EmitterKind

theorem output_plain (current : Style) (events : List Event) :
    EmitterKind.plain.output current events =
      (events.filterMap Event.text?).flatMap String.toList := by
  induction events generalizing current with
  | nil => rfl
  | cons event rest ih =>
      cases event with
      | write piece =>
          rw [output, List.filterMap_cons_some (f := Event.text?) rfl, List.flatMap_cons, ← ih current]
          exact congrArg (· ++ EmitterKind.plain.output current rest)
            (Action.chars_put piece.string)
      | set role style => exact ih current
      | reset => exact ih current

/-- Without styles the texts are written in the form that the kind of emitter gives them. -/
theorem output_of_isPlain (kind : EmitterKind) {events : List Event}
    (h : ∀ event ∈ events, event.isPlain = true) :
    kind.output .plain events =
      (events.filterMap Event.text?).flatMap fun text => (kind.textOf text).toList := by
  induction events with
  | nil => rfl
  | cons event rest ih =>
      rw [List.forall_mem_cons] at h
      cases event with
      | write piece =>
          rw [output, List.filterMap_cons_some (f := Event.text?) rfl, List.flatMap_cons, ← ih h.2]
          exact congrArg (· ++ kind.output .plain rest)
            (Action.chars_put (kind.textOf piece.string))
      | set role style =>
          have plain : style = .plain := of_decide_eq_true h.1
          have still : kind.actions .plain (.set role style) = [] := by
            rw [plain]
            exact setActions_current kind role .plain
          rw [output, shown, still]
          exact ih h.2
      | reset =>
          have still : kind.actions .plain .reset = [] := by
            cases kind <;> rfl
          rw [output, shown, still]
          exact ih h.2

end EmitterKind
end SourceReport

import SourceReport.Proofs.Refusals

/-!
# Repeated calls

A call that failed may be repeated when the sink accepts writes again. An event goes on where it was
stopped if its tags are remembered when they are written. A debug emitter takes the style for set and
never writes its tag.
-/

namespace SourceReport
namespace EmitterKind

variable {kind : EmitterKind} {done rest : List Action} {text : String}

/-- A tag that is remembered when it is written is refused before anything is done. -/
theorem done_eq_nil {tag : String} {style : Style}
    (h : [.put tag, .become style] = done ++ .put text :: rest) : done = [] := by
  rcases done with _ | ⟨first, _ | ⟨second, others⟩⟩
  · rfl
  · simp at h
  · simp at h

theorem resetActions_resume {current : Style}
    (h : kind.resetActions current = done ++ .put text :: rest) :
    kind.resetActions (done.foldl Action.shown current) = .put text :: rest := by
  have unstarted : done = [] := by
    rw [resetActions] at h
    split at h
    · simp at h
    · exact done_eq_nil h
  rw [unstarted] at h ⊢
  exact h

/-- A switch that fails has done nothing, or has closed the style that was shown. -/
theorem setActions_resume (switches : kind = .ansi ∨ kind = .markup) {current style : Style}
    {role : Role} (h : kind.setActions current role style = done ++ .put text :: rest) :
    kind.setActions (done.foldl Action.shown current) role style = .put text :: rest := by
  have resumed (unstarted : done = []) :
      kind.setActions (done.foldl Action.shown current) role style = .put text :: rest := by
    rw [unstarted] at h ⊢
    exact h
  have switch := h
  rw [setActions_eq switches] at switch
  by_cases same : style = current
  · rw [if_pos same] at switch
    simp at switch
  rw [if_neg same] at switch
  by_cases shownPlain : current = .plain
  · have styled : style ≠ .plain := fun plain => same (plain.trans shownPlain.symm)
    rw [resetActions, if_pos shownPlain, if_neg styled] at switch
    exact resumed (done_eq_nil switch)
  rw [resetActions, if_neg shownPlain] at switch
  rcases done with _ | ⟨first, _ | ⟨second, others⟩⟩
  · exact resumed rfl
  · simp at switch
  · -- The closing tag was accepted, so the repeated switch begins from the plain style.
    simp only [List.cons_append, List.nil_append, List.cons.injEq] at switch
    rcases switch with ⟨rfl, rfl, opening⟩
    by_cases plain : style = .plain
    · rw [if_pos plain] at opening
      simp at opening
    · rw [if_neg plain] at opening
      have unopened := done_eq_nil opening
      rw [unopened] at opening ⊢
      rw [setActions_eq switches]
      show (if style = .plain then [] else
        kind.resetActions .plain ++ if style = .plain then [] else _) = _
      rw [if_neg plain, if_neg plain]
      exact opening

/-- What a repeated event does is what it had not done, unless it changes the style early. -/
theorem actions_resume (styled : kind ≠ .plain) {event : Event}
    (late : kind.isEarly event = false) {current : Style}
    (h : kind.actions current event = done ++ .put text :: rest) :
    kind.actions (done.foldl Action.shown current) event = .put text :: rest := by
  cases event with
  | write written =>
      have unstarted : done = [] := by
        rcases done with _ | ⟨first, others⟩
        · rfl
        · simp [actions] at h
      rw [unstarted] at h ⊢
      exact h
  | reset =>
      cases kind with
      | plain => exact absurd rfl styled
      | ansi => exact resetActions_resume h
      | markup => exact resetActions_resume h
      | debug => exact resetActions_resume h
  | set role style =>
      cases kind with
      | plain => exact absurd rfl styled
      | ansi => exact setActions_resume (.inl rfl) h
      | markup => exact setActions_resume (.inr rfl) h
      | debug => exact absurd late Bool.noConfusion

end EmitterKind

namespace Emitter

variable {emitter : Emitter}

/-- An event that fails stops before a text, and keeps what it has done. -/
theorem perform_failed {actions : List Action} {failure : Failure}
    (h : (emitter.perform actions).2 = some failure) :
    ∃ done text rest, actions = done ++ .put text :: rest ∧
      (emitter.perform actions).1.current = done.foldl Action.shown emitter.current ∧
      (emitter.perform actions).1.sink.written.toList =
        emitter.sink.written.toList ++ Action.chars done := by
  induction actions generalizing emitter with
  | nil => exact absurd h nofun
  | cons action rest ih =>
      cases action with
      | become style =>
          rcases @ih { emitter with current := style } h with
            ⟨done, text, others, rfl, current, written⟩
          exact ⟨.become style :: done, text, others, rfl, current, written⟩
      | put first =>
          cases accepted : (emitter.sink.write first).2 with
          | false =>
              rw [(perform_put_refused accepted rest).1]
              refine ⟨[], first, rest, rfl, rfl, ?_⟩
              simp [written_write, accepted, Action.chars]
          | true =>
              rw [(perform_put_accepted accepted rest).1] at h ⊢
              rcases ih h with ⟨done, text, others, rfl, current, written⟩
              refine ⟨.put first :: done, text, others, rfl, current, ?_⟩
              rw [written, written_write, accepted, if_pos rfl, String.toList_append,
                List.append_assoc]
              rfl

/-- A failed event that is repeated leaves what it leaves when it is accepted at once. -/
theorem step_again (styled : emitter.kind ≠ .plain) {event : Event} {failure : Failure}
    (late : emitter.kind.isEarly event = false) (h : (emitter.step event).2 = some failure) :
    ((emitter.step event).1.recovered.step event).1.current =
        (emitter.recovered.step event).1.current ∧
      ((emitter.step event).1.recovered.step event).1.sink.written =
        (emitter.recovered.step event).1.sink.written := by
  rcases perform_failed h with ⟨done, text, rest, all, current, written⟩
  have remaining : (emitter.step event).1.recovered.kind.actions
      (emitter.step event).1.recovered.current event = .put text :: rest := by
    show (emitter.step event).1.kind.actions (emitter.step event).1.current event = _
    rw [kind_step, step, current]
    exact EmitterKind.actions_resume styled late all
  have again := leads_perform (accepts_recovered (emitter.step event).1)
    ((emitter.step event).1.recovered.kind.actions (emitter.step event).1.recovered.current event)
  have once := leads_perform (accepts_recovered emitter) (emitter.kind.actions emitter.current event)
  rw [← step, remaining] at again
  constructor
  · refine again.current_eq.trans (Eq.trans ?_ once.current_eq.symm)
    rw [all, List.foldl_append]
    exact congrArg (List.foldl Action.shown · (.put text :: rest)) current
  · apply String.toList_injective
    refine again.written_eq.trans (Eq.trans ?_ once.written_eq.symm)
    rw [all, Action.chars_append, ← List.append_assoc]
    exact congrArg (· ++ Action.chars (.put text :: rest)) written

/-- A debug emitter holds a style that is refused for set: the repeated event does nothing. -/
theorem step_again_debug (debug : emitter.kind = .debug) {role : Role} {style : Style}
    {failure : Failure} (h : (emitter.step (.set role style)).2 = some failure) :
    (emitter.step (.set role style)).1.recovered.step (.set role style) =
        ((emitter.step (.set role style)).1.recovered, none) ∧
      (emitter.step (.set role style)).1.sink.written = emitter.sink.written := by
  constructor
  · have current : (emitter.step (.set role style)).1.recovered.current = style :=
      (current_step_debug debug role style).1
    rw [step, current, EmitterKind.actions, EmitterKind.setActions_current, perform]
  · rcases perform_failed h with ⟨done, text, rest, all, -, written⟩
    have silent : Action.chars done = [] := by
      rw [debug, EmitterKind.actions, EmitterKind.setActions] at all
      split at all
      · simp at all
      · rcases done with _ | ⟨first, _ | ⟨second, others⟩⟩
        · rfl
        · simp only [List.cons_append, List.cons.injEq] at all
          rw [← all.1]
          rfl
        · simp at all
    rw [silent, List.append_nil] at written
    exact String.toList_injective written

theorem refusals_exact {kind : EmitterKind} (styled : kind ≠ .plain) (sink : Sink)
    (events : List Event) :
    let emitter := ({ kind, sink } : Emitter).afterAll events
    let history := ({ kind, sink } : Emitter).history events
    emitter.sink.written = sink.written ++ Attempt.acceptedText history ∧
      emitter.current = Attempt.lastTag kind .plain (history.filter (Attempt.isNoted kind)) ∧
      ((∀ attempt ∈ history, kind.isEarly attempt.event = true → attempt.accepted = true) →
        emitter.current = Attempt.lastTag kind .plain (history.filter Attempt.accepted)) ∧
      ∀ event failure, (emitter.step event).2 = some failure →
        let again := (emitter.step event).1.recovered.step event
        let once := emitter.recovered.step event
        again.2 = none ∧ again.1.current = once.1.current ∧
          again.1.sink.written =
            if kind.isEarly event then emitter.sink.written else once.1.sink.written := by
  intro emitter history
  rcases @afterAll_exact { kind, sink } styled events with ⟨kept, written, current⟩
  refine ⟨written, current, ?_, ?_⟩
  · intro acceptsEarly
    have noted : history.filter (Attempt.isNoted kind) = history.filter Attempt.accepted := by
      refine List.filter_congr fun attempt member => ?_
      cases early : kind.isEarly attempt.event with
      | false => rw [Attempt.isNoted, early, Bool.or_false]
      | true => rw [Attempt.isNoted, early, acceptsEarly attempt member early, Bool.or_true]
    rw [← noted]
    exact current
  · intro event failure failed again once
    have done : again.2 = none :=
      (perform_of_accepts (accepts_recovered (emitter.step event).1) _).1
    refine ⟨done, ?_⟩
    cases early : kind.isEarly event with
    | false =>
        exact step_again (kept.symm ▸ styled) (kept.symm ▸ early) failed
    | true =>
        -- Only a set of a debug emitter is early.
        cases event with
        | write text => exact absurd early Bool.false_ne_true
        | reset => exact absurd early Bool.false_ne_true
        | set role style =>
            have debug : emitter.kind = .debug := kept.trans (of_decide_eq_true early)
            rcases step_again_debug debug failed with ⟨same, unwritten⟩
            have held : once.1.current = style :=
              (leads_perform (accepts_recovered emitter) _).current_eq.trans
                (EmitterKind.shown_set (kept.symm ▸ styled) emitter.current role style)
            refine ⟨?_, ?_⟩
            · rw [held, show again = _ from same]
              exact (current_step_debug debug role style).1
            · rw [show again = _ from same]
              exact unwritten

theorem refusals_exact_letters :
    let events : List Event :=
      [.set .lineNumber { foreground := some .cyan }, .write "a", .set .noteBullet { bold := true }]
    let emitter := ({ kind := .markup, sink := .ofCalls 3 } : Emitter).afterAll events
    let again := (emitter.step (.set .noteBullet { bold := true })).1.recovered.step
      (.set .noteBullet { bold := true })
    EmitterKind.markup ≠ .plain ∧
      emitter.sink.written = "<span class=\"line-number\">a</span>" ∧ emitter.current = .plain ∧
      (emitter.step (.set .noteBullet { bold := true })).2 = some (.refused "disk full") ∧
      again.1.sink.written =
        "<span class=\"line-number\">a</span><span class=\"note-bullet\">" := by
  intro events emitter again
  have styled : EmitterKind.markup ≠ .plain := by decide
  have refused : (emitter.step (.set .noteBullet { bold := true })).2 =
      some (.refused "disk full") := by decide
  rcases refusals_exact styled (.ofCalls 3) events with ⟨written, -, current, repeated⟩
  have others := repeated _ _ refused
  have early : ∀ attempt ∈ ({ kind := .markup, sink := .ofCalls 3 } : Emitter).history events,
      EmitterKind.markup.isEarly attempt.event = true → attempt.accepted = true := by decide
  refine ⟨styled, written.trans (by decide), (current early).trans (by decide), refused, ?_⟩
  exact others.2.2.trans (by decide)

/-- The first tag is refused, and nothing shows the style that the emitter remembers. -/
theorem refused_tag_remembered :
    let red : Event := .set .lineNumber { foreground := some .red }
    let fresh : Emitter := { kind := .debug, sink := .ofCalls 0 }
    let emitter := fresh.afterAll [red]
    (fresh.step red).2 = some (.refused "disk full") ∧ emitter.sink.written = "" ∧
      Attempt.lastTag .debug .plain ((fresh.history [red]).filter Attempt.accepted) = .plain ∧
      emitter.current = { foreground := some .red } ∧
      (emitter.recovered.step red).2 = none ∧
      (emitter.recovered.step red).1.sink.written = "" ∧
      (fresh.recovered.step red).1.sink.written = "\x7bfg:Red\x7d" := by
  decide

end Emitter
end SourceReport

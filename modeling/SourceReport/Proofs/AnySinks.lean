import SourceReport.Proofs.Courses
import SourceReport.Proofs.Refusals

/-!
# Reports on any sink

The texts that a report puts on its sink are known before the first one is written: they are those
of its course. On any sink they are written one after another, and the first one that is refused is
the last one that is tried.
-/

namespace SourceReport
namespace Sink

/-!
# Writing texts
-/

/-- Writes texts up to the first one that is refused. -/
def writeAll (sink : Sink) : List String → Sink × Bool
  | [] => (sink, true)
  | text :: rest =>
      if (sink.write text).2 then (sink.write text).1.writeAll rest else sink.write text

variable {sink : Sink}

theorem writeAll_cons_of_accepted {text : String} (h : (sink.write text).2 = true)
    (rest : List String) : sink.writeAll (text :: rest) = (sink.write text).1.writeAll rest := by
  rw [writeAll, if_pos h]

theorem writeAll_cons_of_refused {text : String} (h : (sink.write text).2 = false)
    (rest : List String) : sink.writeAll (text :: rest) = ((sink.write text).1, false) := by
  have refused : ¬ (sink.write text).2 = true := by
    rw [h]
    exact Bool.false_ne_true
  rw [writeAll, if_neg refused, ← h]

theorem writeAll_append_of_accepted {front : List String} (h : (sink.writeAll front).2 = true)
    (back : List String) :
    sink.writeAll (front ++ back) = (sink.writeAll front).1.writeAll back := by
  induction front generalizing sink with
  | nil => rfl
  | cons text rest ih =>
      cases accepted : (sink.write text).2 with
      | true =>
          rw [writeAll_cons_of_accepted accepted] at h ⊢
          rw [List.cons_append, writeAll_cons_of_accepted accepted]
          exact ih h
      | false =>
          rw [writeAll_cons_of_refused accepted] at h
          cases h

theorem writeAll_append_of_refused {front : List String} (h : (sink.writeAll front).2 = false)
    (back : List String) : sink.writeAll (front ++ back) = sink.writeAll front := by
  induction front generalizing sink with
  | nil => cases h
  | cons text rest ih =>
      rw [List.cons_append]
      cases accepted : (sink.write text).2 with
      | true =>
          rw [writeAll_cons_of_accepted accepted] at h
          rw [writeAll_cons_of_accepted accepted, writeAll_cons_of_accepted accepted]
          exact ih h
      | false => rw [writeAll_cons_of_refused accepted, writeAll_cons_of_refused accepted]

theorem reason_writeAll (sink : Sink) (texts : List String) :
    (sink.writeAll texts).1.reason = sink.reason := by
  induction texts generalizing sink with
  | nil => rfl
  | cons text rest ih =>
      cases accepted : (sink.write text).2 with
      | true =>
          rw [writeAll_cons_of_accepted accepted, ih]
          rfl
      | false =>
          rw [writeAll_cons_of_refused accepted]
          rfl

/-- Where every text is accepted, all of them have been written and no other one. -/
theorem writeAll_of_accepted {texts : List String} (h : (sink.writeAll texts).2 = true) :
    (sink.writeAll texts).1.written = sink.written ++ String.join texts ∧
      (sink.writeAll texts).1.calls = sink.calls + texts.length := by
  induction texts generalizing sink with
  | nil => exact ⟨String.append_empty.symm, rfl⟩
  | cons text rest ih =>
      cases accepted : (sink.write text).2 with
      | true =>
          rw [writeAll_cons_of_accepted accepted] at h ⊢
          rcases ih h with ⟨written, calls⟩
          refine ⟨?_, ?_⟩
          · rw [written, Emitter.written_write, if_pos accepted, String.join_cons,
              String.append_assoc]
          · rw [calls, List.length_cons, Nat.add_comm rest.length, ← Nat.add_assoc]
            rfl
      | false =>
          rw [writeAll_cons_of_refused accepted] at h
          cases h

/-- A refused text is the last one that is tried, and those before it have been written. -/
theorem writeAll_of_refused {texts : List String} (h : (sink.writeAll texts).2 = false) :
    ∃ accepted refused others, texts = accepted ++ refused :: others ∧
      (sink.writeAll texts).1.written = sink.written ++ String.join accepted ∧
      (sink.writeAll texts).1.calls = sink.calls + accepted.length + 1 ∧
      sink.accepts (sink.written ++ String.join accepted) (sink.calls + accepted.length) refused =
        false := by
  induction texts generalizing sink with
  | nil => cases h
  | cons text rest ih =>
      cases accepted : (sink.write text).2 with
      | true =>
          rw [writeAll_cons_of_accepted accepted] at h ⊢
          rcases ih h with ⟨front, refused, others, parts, written, calls, answer⟩
          have begun : (sink.write text).1.written ++ String.join front =
              sink.written ++ String.join (text :: front) := by
            rw [Emitter.written_write, if_pos accepted, String.join_cons, String.append_assoc]
          have count : (sink.write text).1.calls + front.length =
              sink.calls + (text :: front).length := by
            rw [List.length_cons, Nat.add_comm front.length, ← Nat.add_assoc]
            rfl
          rw [begun] at written answer
          rw [count] at calls answer
          exact ⟨text :: front, refused, others, congrArg (text :: ·) parts, written, calls, answer⟩
      | false =>
          rw [writeAll_cons_of_refused accepted]
          refine ⟨[], text, rest, rfl, ?_, rfl, ?_⟩
          · rw [Emitter.written_write, accepted]
            exact String.append_empty.symm
          · have same : sink.written ++ String.join [] = sink.written := String.append_empty
            rw [same]
            exact accepted

end Sink

/-!
# Texts of events
-/

/-- The texts that events make an emitter put on its sink. -/
def EmitterKind.texts (kind : EmitterKind) (current : Style) : List Event → List String
  | [] => []
  | event :: rest =>
      (kind.actions current event).filterMap Action.text? ++
        texts kind (kind.shown current event) rest

namespace Emitter

/-- How an emitter ends that has texts to put on its sink: all of them are written, or the failure
is the refusal of the last one that it tried. -/
structure Puts (emitter : Emitter) (texts : List String) (shown : Style)
    (outcome : Emitter × Option Failure) : Prop where
  kind_eq : outcome.1.kind = emitter.kind
  sink_eq : outcome.1.sink = (emitter.sink.writeAll texts).1
  failure_eq : outcome.2 =
    if (emitter.sink.writeAll texts).2 then none else some (.refused emitter.sink.reason)
  current_eq : outcome.2 = none → outcome.1.current = shown

namespace Puts

variable {emitter next : Emitter} {front back texts : List String} {style shown : Style}
  {outcome : Emitter × Option Failure} {failure : Failure}

theorem accepted (h : emitter.Puts texts shown (next, none)) :
    (emitter.sink.writeAll texts).2 = true := by
  by_contra refused
  have this := h.failure_eq
  rw [if_neg refused] at this
  cases this

theorem refused (h : emitter.Puts texts shown (next, some failure)) :
    (emitter.sink.writeAll texts).2 = false ∧ failure = .refused emitter.sink.reason := by
  have this := h.failure_eq
  split at this
  · cases this
  · rename_i refused
    exact ⟨Bool.eq_false_iff.mpr refused, Option.some_inj.mp this⟩

/-- What is put after texts that were all accepted. -/
theorem append (first : emitter.Puts front style (next, none))
    (second : next.Puts back shown outcome) : emitter.Puts (front ++ back) shown outcome := by
  have whole := Sink.writeAll_append_of_accepted first.accepted back
  have sink : next.sink = (emitter.sink.writeAll front).1 := first.sink_eq
  have reason : next.sink.reason = emitter.sink.reason := by
    rw [sink, Sink.reason_writeAll]
  refine ⟨second.kind_eq.trans first.kind_eq, ?_, ?_, second.current_eq⟩
  · rw [second.sink_eq, sink, whole]
  · rw [second.failure_eq, reason, sink, whole]

/-- After a refusal nothing else is put. -/
theorem append_refused (first : emitter.Puts front style (next, some failure))
    (back : List String) (shown : Style) :
    emitter.Puts (front ++ back) shown (next, some failure) := by
  have whole := Sink.writeAll_append_of_refused first.refused.1 back
  refine ⟨first.kind_eq, ?_, ?_, nofun⟩
  · rw [whole]
    exact first.sink_eq
  · rw [whole]
    exact first.failure_eq

end Puts

/-!
# Runs
-/

theorem puts_perform (emitter : Emitter) (actions : List Action) :
    emitter.Puts (actions.filterMap Action.text?) (actions.foldl Action.shown emitter.current)
      (emitter.perform actions) := by
  induction actions generalizing emitter with
  | nil => exact ⟨rfl, rfl, rfl, fun _ => rfl⟩
  | cons action rest ih =>
      cases action with
      | become style =>
          have others := ih { emitter with current := style }
          exact ⟨others.kind_eq, others.sink_eq, others.failure_eq, others.current_eq⟩
      | put text =>
          rw [List.filterMap_cons_some (f := Action.text?) rfl]
          cases accepted : (emitter.sink.write text).2 with
          | true =>
              have others := ih { emitter with sink := (emitter.sink.write text).1 }
              have tried := Sink.writeAll_cons_of_accepted accepted (rest.filterMap Action.text?)
              rw [(perform_put_accepted accepted rest).1]
              refine ⟨others.kind_eq, ?_, ?_, others.current_eq⟩
              · rw [tried]
                exact others.sink_eq
              · rw [tried]
                exact others.failure_eq
          | false =>
              have tried := Sink.writeAll_cons_of_refused accepted (rest.filterMap Action.text?)
              rw [(perform_put_refused accepted rest).1]
              refine ⟨rfl, ?_, ?_, nofun⟩
              · rw [tried]
              · rw [tried]
                rfl

theorem puts_run (emitter : Emitter) (events : List Event) :
    emitter.Puts (emitter.kind.texts emitter.current events)
      (emitter.kind.shownAfter emitter.current events) (emitter.run events) := by
  induction events generalizing emitter with
  | nil => exact ⟨rfl, rfl, rfl, fun _ => rfl⟩
  | cons event rest ih =>
      have first := emitter.puts_perform (emitter.kind.actions emitter.current event)
      rw [run, step]
      cases performed : emitter.perform (emitter.kind.actions emitter.current event) with
      | mk next failure =>
          rw [performed] at first
          cases failure with
          | some failure => exact first.append_refused _ _
          | none =>
              have others := ih next
              have kind : next.kind = emitter.kind := first.kind_eq
              have shown : next.current = emitter.kind.shown emitter.current event :=
                first.current_eq rfl
              rw [kind, shown] at others
              exact first.append others

end Emitter
end SourceReport

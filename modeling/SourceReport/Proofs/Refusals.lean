import SourceReport.Proofs.Markup
import SourceReport.Proofs.Terminal

/-!
# Refused writes

A sink may refuse any write, and an emitter may be called again after a refusal. The sink shows the
style of the last tag that it accepted. Escapes and spans are remembered when they are accepted, so
what an emitter remembers is what the sink shows. A debug emitter remembers a style before its tag is
written, so a refused tag leaves it wrong.
-/

namespace SourceReport

/-!
# Tags
-/

theorem Style.not_mem_attributes {style : Style} {text : String} (h : text ∈ style.attributes) :
    '/' ∉ text.toList := by
  simp only [attributes, List.mem_append, Option.mem_toList, Option.map_eq_some_iff,
    List.mem_ite_nil_right, List.mem_singleton] at h
  rcases h with (((⟨color, -, rfl⟩ | ⟨color, -, rfl⟩) | ⟨-, rfl⟩) | ⟨-, rfl⟩) | ⟨-, rfl⟩
  · cases color <;> decide
  · cases color <;> decide
  · decide
  · decide
  · decide

namespace EmitterKind

/-- Only closing tags have a slash. -/
theorem slash_not_mem_opening {kind : EmitterKind} (h : kind = .markup ∨ kind = .debug)
    (role : Role) (style : Style) : '/' ∉ (kind.opening role style).toList := by
  rcases h with rfl | rfl
  · have named : '/' ∉ role.name.toList := role.not_mem_name (by decide)
    simp only [opening, String.toList_append, List.mem_append, not_or]
    exact ⟨⟨by decide, named⟩, by decide⟩
  · have listed : '/' ∉ (" ".intercalate style.attributes).toList :=
      not_mem_intercalate (by decide) fun _ => Style.not_mem_attributes
    simp only [opening, String.toList_append, List.mem_append, not_or]
    exact ⟨⟨by decide, listed⟩, by decide⟩

/-- Escapes differ in what a terminal makes of them, unless the style has no parameters: then they
differ in the zero. -/
theorem ansi_opening_ne_closing (role : Role) (style : Style) :
    EmitterKind.ansi.opening role style ≠ EmitterKind.ansi.closing := by
  intro same
  have opened := @Terminal.readAll_opening [] role style
  rw [same, Terminal.readAll_closing] at opened
  have unstyled : Look.ofStyle style = {} := (congrArg Terminal.look opened).symm
  have codes : style.ansiCodes = [] := by
    rcases style with ⟨foreground, background, bold, underline, intense⟩
    simp only [Look.ofStyle, Look.mk.injEq, Option.map_eq_none_iff] at unstyled
    rcases unstyled with ⟨rfl, rfl, rfl, rfl⟩
    rfl
  rw [opening, codes] at same
  exact absurd same (by decide)

theorem opening_ne_closing {kind : EmitterKind} (h : kind ≠ .plain) (role : Role) (style : Style) :
    kind.opening role style ≠ kind.closing := by
  have slashed : kind = .markup ∨ kind = .debug → '/' ∈ kind.closing.toList := by
    rintro (rfl | rfl) <;> decide
  have apart : kind = .markup ∨ kind = .debug → kind.opening role style ≠ kind.closing := by
    intro either same
    have member := slashed either
    rw [← same] at member
    exact slash_not_mem_opening either role style member
  cases kind with
  | plain => exact absurd rfl h
  | ansi => exact ansi_opening_ne_closing role style
  | markup => exact apart (.inl rfl)
  | debug => exact apart (.inr rfl)

end EmitterKind

/-!
# Attempts
-/

namespace EmitterKind

/-- The style that a text put on the sink by an event is the tag for. A closing tag stands for the
plain style. -/
def tag? (kind : EmitterKind) (event : Event) (text : String) : Option Style :=
  match event with
  | .write _ => none
  | .set _ style => some (if text = kind.closing then .plain else style)
  | .reset => some .plain

/-- Whether an event makes an emitter remember its style before the tag is written. -/
def isEarly (kind : EmitterKind) : Event → Bool
  | .write _ => false
  | .set _ _ => kind = .debug
  | .reset => false

end EmitterKind

/-- A text that an event puts on the sink, and whether the sink accepted it. -/
structure Attempt where
  event : Event
  text : String
  accepted : Bool
  deriving DecidableEq, Repr

namespace Attempt

/-- Whether an emitter of a kind takes note of the tag. -/
def isNoted (kind : EmitterKind) (attempt : Attempt) : Bool :=
  attempt.accepted || kind.isEarly attempt.event

/-- The style of the last tag among attempts, or the given one if there is none. -/
def lastTag (kind : EmitterKind) (style : Style) (attempts : List Attempt) : Style :=
  (attempts.filterMap fun attempt => kind.tag? attempt.event attempt.text).getLastD style

theorem lastTag_append (kind : EmitterKind) (style : Style) (front back : List Attempt) :
    lastTag kind style (front ++ back) = lastTag kind (lastTag kind style front) back := by
  rw [lastTag, lastTag, lastTag, List.filterMap_append]
  induction front.filterMap fun attempt => kind.tag? attempt.event attempt.text generalizing style with
  | nil => rfl
  | cons next rest ih => rw [List.cons_append, List.getLastD_cons, List.getLastD_cons, ih]

/-- The accepted texts, in order. -/
def acceptedText (attempts : List Attempt) : String :=
  String.join ((attempts.filter accepted).map text)

theorem acceptedText_append (front back : List Attempt) :
    acceptedText (front ++ back) = acceptedText front ++ acceptedText back := by
  rw [acceptedText, List.filter_append, List.map_append, String.join_append]
  rfl

end Attempt

namespace Emitter

/-- The texts that actions put on the sink, up to the first one that is refused. -/
def puts (emitter : Emitter) : List Action → List (String × Bool)
  | [] => []
  | .become style :: rest => puts { emitter with current := style } rest
  | .put text :: rest =>
      let (sink, accepted) := emitter.sink.write text
      (text, accepted) :: if accepted then puts { emitter with sink } rest else []

/-- The attempts that one event makes. -/
def attempts (emitter : Emitter) (event : Event) : List Attempt :=
  (emitter.puts (emitter.kind.actions emitter.current event)).map fun (text, accepted) =>
    { event, text, accepted }

/-- The emitter after calls, whether or not they failed. -/
def afterAll (emitter : Emitter) (events : List Event) : Emitter :=
  events.foldl (fun emitter event => (emitter.step event).1) emitter

/-- All attempts of calls. -/
def history (emitter : Emitter) : List Event → List Attempt
  | [] => []
  | event :: rest => emitter.attempts event ++ history (emitter.step event).1 rest

/-- The emitter when its sink has begun to accept every write. -/
def recovered (emitter : Emitter) : Emitter :=
  { emitter with sink := { emitter.sink with accepts := fun _ _ _ => true } }

variable {emitter : Emitter}

theorem accepts_recovered (emitter : Emitter) : emitter.recovered.Accepts :=
  fun _ _ _ => rfl

/-!
# Single writes
-/

theorem perform_put_accepted {text : String} (h : (emitter.sink.write text).2 = true)
    (rest : List Action) :
    emitter.perform (.put text :: rest) =
        ({ emitter with sink := (emitter.sink.write text).1 } : Emitter).perform rest ∧
      emitter.puts (.put text :: rest) =
        (text, true) ::
          ({ emitter with sink := (emitter.sink.write text).1 } : Emitter).puts rest := by
  rw [perform, puts]
  simp only [h, if_true, and_self]

theorem perform_put_refused {text : String} (h : (emitter.sink.write text).2 = false)
    (rest : List Action) :
    emitter.perform (.put text :: rest) =
        ({ emitter with sink := (emitter.sink.write text).1 },
          some (.refused (emitter.sink.write text).1.reason)) ∧
      emitter.puts (.put text :: rest) = [(text, false)] := by
  rw [perform, puts]
  simp only [h, Bool.false_eq_true, if_false, and_self]

theorem perform_put (text : String) :
    (emitter.perform [.put text]).1.current = emitter.current ∧
      emitter.puts [.put text] = [(text, (emitter.sink.write text).2)] := by
  cases accepted : (emitter.sink.write text).2 with
  | false =>
      rw [(perform_put_refused accepted []).1]
      exact ⟨rfl, (perform_put_refused accepted []).2⟩
  | true =>
      rw [(perform_put_accepted accepted []).1]
      exact ⟨rfl, (perform_put_accepted accepted []).2⟩

theorem written_write (sink : Sink) (text : String) :
    (sink.write text).1.written =
      if (sink.write text).2 then sink.written ++ text else sink.written := rfl

theorem kind_perform (actions : List Action) : (emitter.perform actions).1.kind = emitter.kind := by
  induction actions generalizing emitter with
  | nil => rfl
  | cons action rest ih =>
      cases action with
      | become style => exact ih
      | put text =>
          cases accepted : (emitter.sink.write text).2 with
          | false => rw [(perform_put_refused accepted rest).1]
          | true =>
              rw [(perform_put_accepted accepted rest).1]
              exact ih

/-- A refused write adds nothing. -/
theorem written_perform (actions : List Action) :
    (emitter.perform actions).1.sink.written = emitter.sink.written ++
      String.join (((emitter.puts actions).filter Prod.snd).map Prod.fst) := by
  induction actions generalizing emitter with
  | nil => exact (String.append_empty).symm
  | cons action rest ih =>
      cases action with
      | become style => exact ih
      | put text =>
          cases accepted : (emitter.sink.write text).2 with
          | false =>
              rw [(perform_put_refused accepted rest).1, (perform_put_refused accepted rest).2]
              simp [written_write, accepted]
          | true =>
              rw [(perform_put_accepted accepted rest).1, (perform_put_accepted accepted rest).2, ih]
              simp [written_write, accepted, String.append_assoc]

end Emitter

/-!
# What is remembered
-/

/-- Actions that remember the style of each tag right after it is written. -/
inductive Action.Remembers (tag? : String → Option Style) : List Action → Prop
  | nil : Remembers tag? []
  | text {text : String} {rest : List Action} (h : tag? text = none)
      (others : Remembers tag? rest) : Remembers tag? (.put text :: rest)
  | tag {text : String} {style : Style} {rest : List Action} (h : tag? text = some style)
      (others : Remembers tag? rest) : Remembers tag? (.put text :: .become style :: rest)

namespace EmitterKind

variable {kind : EmitterKind}

theorem remembers_resetActions {tag? : String → Option Style}
    (h : tag? kind.closing = some .plain) (current : Style) {rest : List Action}
    (others : Action.Remembers tag? rest) :
    Action.Remembers tag? (kind.resetActions current ++ rest) := by
  rw [resetActions]
  split
  · exact others
  · exact .tag h others

theorem remembers_actions (styled : kind ≠ .plain) {event : Event}
    (late : kind.isEarly event = false) (current : Style) :
    Action.Remembers (kind.tag? event) (kind.actions current event) := by
  have afterReset : Action.Remembers (kind.tag? .reset) (kind.resetActions current) := by
    have closing : kind.tag? .reset kind.closing = some .plain := rfl
    have closed := remembers_resetActions closing current .nil
    rwa [List.append_nil] at closed
  have afterSet (switches : kind = .ansi ∨ kind = .markup) (role : Role) (style : Style) :
      Action.Remembers (kind.tag? (.set role style)) (kind.setActions current role style) := by
    have closing : kind.tag? (.set role style) kind.closing = some .plain :=
      congrArg some (if_pos rfl)
    have opening : kind.tag? (.set role style) (kind.opening role style) = some style :=
      congrArg some (if_neg (opening_ne_closing styled role style))
    rw [setActions_eq switches]
    split
    · exact .nil
    · apply remembers_resetActions closing
      split
      · exact .nil
      · exact .tag opening .nil
  cases event with
  | write text => exact .text rfl .nil
  | reset =>
      cases kind with
      | plain => exact absurd rfl styled
      | ansi => exact afterReset
      | markup => exact afterReset
      | debug => exact afterReset
  | set role style =>
      cases kind with
      | plain => exact absurd rfl styled
      | ansi => exact afterSet (.inl rfl) role style
      | markup => exact afterSet (.inr rfl) role style
      | debug => exact absurd late Bool.noConfusion

end EmitterKind

namespace Emitter

variable {emitter : Emitter}

theorem current_perform {tag? : String → Option Style} {actions : List Action}
    (h : Action.Remembers tag? actions) :
    (emitter.perform actions).1.current =
      (((emitter.puts actions).filter Prod.snd).filterMap fun put => tag? put.1).getLastD
        emitter.current := by
  induction h generalizing emitter with
  | nil => rfl
  | @text text rest untagged _ ih =>
      cases accepted : (emitter.sink.write text).2 with
      | false =>
          rw [(perform_put_refused accepted rest).1, (perform_put_refused accepted rest).2]
          rfl
      | true =>
          rw [(perform_put_accepted accepted rest).1, (perform_put_accepted accepted rest).2, ih,
            List.filter_cons_of_pos rfl,
            List.filterMap_cons_none (f := fun put : String × Bool => tag? put.1) untagged]
  | @tag text style rest tagged _ ih =>
      cases accepted : (emitter.sink.write text).2 with
      | false =>
          rw [(perform_put_refused accepted (.become style :: rest)).1,
            (perform_put_refused accepted (.become style :: rest)).2]
          rfl
      | true =>
          rw [(perform_put_accepted accepted (.become style :: rest)).1,
            (perform_put_accepted accepted (.become style :: rest)).2, perform, puts, ih,
            List.filter_cons_of_pos rfl,
            List.filterMap_cons_some (f := fun put : String × Bool => tag? put.1) tagged,
            List.getLastD_cons]

theorem event_of_mem_attempts {event : Event} {attempt : Attempt}
    (h : attempt ∈ emitter.attempts event) : attempt.event = event := by
  rcases List.mem_map.mp h with ⟨_, _, rfl⟩
  rfl

/-- The texts of an event that the sink accepts. -/
theorem filter_accepted_attempts (event : Event) :
    (emitter.attempts event).filter Attempt.accepted =
      ((emitter.puts (emitter.kind.actions emitter.current event)).filter Prod.snd).map
        fun (text, accepted) => { event, text, accepted } := by
  rw [attempts, List.filter_map]
  rfl

theorem written_step (event : Event) :
    (emitter.step event).1.sink.written =
      emitter.sink.written ++ Attempt.acceptedText (emitter.attempts event) := by
  rw [step, written_perform, Attempt.acceptedText, filter_accepted_attempts, List.map_map]
  rfl

/-- A set of a debug emitter takes place even if its tag is refused. -/
theorem current_step_debug (debug : emitter.kind = .debug) (role : Role) (style : Style) :
    (emitter.step (.set role style)).1.current = style ∧
      Attempt.lastTag .debug emitter.current (emitter.attempts (.set role style)) = style := by
  rw [step, attempts, debug, EmitterKind.actions, EmitterKind.setActions]
  split
  · rename_i same
    exact ⟨same.symm, same.symm⟩
  · rw [perform, puts]
    have tagged : EmitterKind.debug.tag? (.set role style)
        (if style = .plain then EmitterKind.debug.closing
          else EmitterKind.debug.opening role style) = some style := by
      split
      · rename_i plain
        rw [plain]
        rfl
      · exact congrArg some
          (if_neg (EmitterKind.opening_ne_closing (by decide) role style))
    generalize (if style = .plain then EmitterKind.debug.closing
      else EmitterKind.debug.opening role style) = text at tagged
    have alone := @perform_put { emitter with current := style } text
    rw [alone.1, alone.2, Attempt.lastTag]
    exact ⟨rfl, by simp [tagged]⟩

theorem current_step (styled : emitter.kind ≠ .plain) (event : Event) :
    (emitter.step event).1.current =
      Attempt.lastTag emitter.kind emitter.current
        ((emitter.attempts event).filter (Attempt.isNoted emitter.kind)) := by
  cases early : emitter.kind.isEarly event with
  | false =>
      have noted : (emitter.attempts event).filter (Attempt.isNoted emitter.kind) =
          (emitter.attempts event).filter Attempt.accepted := by
        refine List.filter_congr fun attempt member => ?_
        rw [Attempt.isNoted, event_of_mem_attempts member, early, Bool.or_false]
      have remembers := EmitterKind.remembers_actions styled early emitter.current
      rw [noted, filter_accepted_attempts, step, current_perform remembers, Attempt.lastTag,
        List.filterMap_map]
      rfl
  | true =>
      -- The style is changed before the write, so accepted or not the attempt is noted.
      have noted : (emitter.attempts event).filter (Attempt.isNoted emitter.kind) =
          emitter.attempts event := by
        refine List.filter_eq_self.mpr fun attempt member => ?_
        rw [Attempt.isNoted, event_of_mem_attempts member, early, Bool.or_true]
      rw [noted]
      cases event with
      | write text => exact absurd early Bool.false_ne_true
      | reset => exact absurd early Bool.false_ne_true
      | set role style =>
          have debug : emitter.kind = .debug := of_decide_eq_true early
          rw [(current_step_debug debug role style).1, debug, (current_step_debug debug role style).2]

theorem kind_step (event : Event) : (emitter.step event).1.kind = emitter.kind :=
  kind_perform _

/-- After any calls, whether they failed or not. -/
theorem afterAll_exact (styled : emitter.kind ≠ .plain) (events : List Event) :
    (emitter.afterAll events).kind = emitter.kind ∧
      (emitter.afterAll events).sink.written =
        emitter.sink.written ++ Attempt.acceptedText (emitter.history events) ∧
      (emitter.afterAll events).current = Attempt.lastTag emitter.kind emitter.current
        ((emitter.history events).filter (Attempt.isNoted emitter.kind)) := by
  induction events generalizing emitter with
  | nil => exact ⟨rfl, String.append_empty.symm, rfl⟩
  | cons event rest ih =>
      have kept := @kind_step emitter event
      have others := @ih (emitter.step event).1 (kept ▸ styled)
      rw [afterAll, List.foldl_cons, ← afterAll, history]
      refine ⟨others.1.trans kept, ?_, ?_⟩
      · rw [others.2.1, written_step, Attempt.acceptedText_append, String.append_assoc]
      · rw [others.2.2, kept, current_step styled, List.filter_append, Attempt.lastTag_append]

end Emitter
end SourceReport

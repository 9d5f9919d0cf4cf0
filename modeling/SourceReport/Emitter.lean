import SourceReport.Event
import SourceReport.Failure

/-!
# Emitters

An emitter turns events into writes on a sink. It remembers the style that the sink shows, so that
setting the style already shown, or resetting when none is shown, writes nothing.
-/

namespace SourceReport

/-!
# Sinks

A sink accepts a write or refuses it. A refused write adds nothing. Whether a write is accepted may
depend on what was accepted before and on how many writes there were.
-/

structure Sink where
  written : String := ""
  calls : Nat := 0
  accepts : String → Nat → String → Bool := fun _ _ _ => true
  reason : String := "disk full"

namespace Sink

def unlimited : Sink := {}

/-- A sink for at most `count` characters. -/
def ofCharacters (count : Nat) : Sink :=
  { accepts := fun written _ text => written.length + text.length ≤ count }

/-- A sink for at most `count` writes. -/
def ofCalls (count : Nat) : Sink :=
  { accepts := fun _ calls _ => calls < count }

/-- The sink after a write, and whether the write was accepted. -/
def write (sink : Sink) (text : String) : Sink × Bool :=
  let accepted := sink.accepts sink.written sink.calls text
  ({ sink with
      written := if accepted then sink.written ++ text else sink.written
      calls := sink.calls + 1 }, accepted)

end Sink

inductive EmitterKind where
  | plain | ansi | markup | debug
  deriving DecidableEq, Repr

namespace EmitterKind

def all : List EmitterKind := [.plain, .ansi, .markup, .debug]

def name : EmitterKind → String
  | .plain => "plain"
  | .ansi => "ansi"
  | .markup => "markup"
  | .debug => "debug"

def ofName? (name : String) : Option EmitterKind :=
  all.find? (·.name = name)

/-- Plain output has no styles to show. -/
def theme : EmitterKind → Theme
  | .plain => .noColor
  | .ansi => .standardColor
  | .markup => .standardColor
  | .debug => .standardColor

end EmitterKind

/-!
# Forms of a style
-/

/-- The parameters of the escape sequence for a style: foreground, background, bold, underline. -/
def Style.ansiCodes (style : Style) : List Nat :=
  let shift := if style.intense then 60 else 0
  (style.foreground.map fun color => 30 + color.offset + shift).toList ++
    (style.background.map fun color => 40 + color.offset + shift).toList ++
    (if style.bold then [1] else []) ++ (if style.underline then [4] else [])

def Style.attributes (style : Style) : List String :=
  (style.foreground.map fun color => "fg:" ++ color.title).toList ++
    (style.background.map fun color => "bg:" ++ color.title).toList ++
    (if style.bold then ["bold"] else []) ++ (if style.underline then ["underline"] else []) ++
    (if style.intense then ["bright"] else [])

def escapeMarkupChar (c : Char) : List Char :=
  if c = '<' then "&lt;".toList
  else if c = '>' then "&gt;".toList
  else if c = '&' then "&amp;".toList
  else [c]

def escapeMarkup (text : String) : String :=
  String.ofList (text.toList.flatMap escapeMarkupChar)

/-!
# Actions

What an event makes of an emitter: writes on the sink, and changes of the style that it remembers.
A refused write ends the event, so the order of the actions decides what is remembered then.
-/

inductive Action where
  | put (text : String)
  | become (style : Style)
  deriving DecidableEq, Repr

namespace EmitterKind

def textOf (kind : EmitterKind) (text : String) : String :=
  match kind with
  | .markup => escapeMarkup text
  | .plain => text
  | .ansi => text
  | .debug => text

def opening (kind : EmitterKind) (role : Role) (style : Style) : String :=
  match kind with
  | .plain => ""
  | .ansi => "\x1b[" ++ ";".intercalate (style.ansiCodes.map toString) ++ "m"
  | .markup => "<span class=\"" ++ role.name ++ "\">"
  | .debug => "\x7b" ++ " ".intercalate style.attributes ++ "\x7d"

def closing : EmitterKind → String
  | .plain => ""
  | .ansi => "\x1b[0m"
  | .markup => "</span>"
  | .debug => "\x7b/\x7d"

def resetActions (kind : EmitterKind) (current : Style) : List Action :=
  if current = .plain then [] else [.put kind.closing, .become .plain]

/-- Escapes and tags close the style that is shown before they open the next one; a debug tag takes
the place of the one before it. -/
def setActions (kind : EmitterKind) (current : Style) (role : Role) (style : Style) :
    List Action :=
  match kind with
  | .plain => []
  | .debug =>
      if style = current then []
      else
        [.become style,
          .put (if style = .plain then kind.closing else kind.opening role style)]
  | .ansi | .markup =>
      if style = current then []
      else
        kind.resetActions current ++
          (if style = .plain then [] else [.put (kind.opening role style), .become style])

def actions (kind : EmitterKind) (current : Style) : Event → List Action
  | .write piece => [.put (kind.textOf piece.string)]
  | .reset =>
      match kind with
      | .plain => []
      | .ansi | .markup | .debug => kind.resetActions current
  | .set role style => kind.setActions current role style

end EmitterKind

/-!
# Running events
-/

structure Emitter where
  kind : EmitterKind
  current : Style := .plain
  sink : Sink := .unlimited

namespace Emitter

def perform (emitter : Emitter) : List Action → Emitter × Option Failure
  | [] => (emitter, none)
  | .become style :: rest => perform { emitter with current := style } rest
  | .put text :: rest =>
      let (sink, accepted) := emitter.sink.write text
      if accepted then perform { emitter with sink } rest
      else ({ emitter with sink }, some (.refused sink.reason))

def step (emitter : Emitter) (event : Event) : Emitter × Option Failure :=
  emitter.perform (emitter.kind.actions emitter.current event)

/-- Runs events up to the first one that fails. -/
def run (emitter : Emitter) : List Event → Emitter × Option Failure
  | [] => (emitter, none)
  | event :: rest =>
      match emitter.step event with
      | (next, none) => next.run rest
      | (next, some failure) => (next, some failure)

end Emitter
end SourceReport

import SourceReport.View

/-!
# Reports

A report draws diagnostics one after another through one emitter. The first failure ends it; what
was written until then stays written.
-/

namespace SourceReport

structure Report where
  emitter : Emitter
  count : Nat := 0
  traces : List Trace := []
  failure : Option Failure := none

namespace Report

/-- Performs steps up to the first failure, of a step or of the sink. -/
def perform (pencil : Pencil) (report : Report) : List Step → Report
  | [] => report
  | .fail failure :: _ => { report with failure := some failure }
  | .trace trace :: rest =>
      perform pencil { report with traces := report.traces ++ [trace] } rest
  | .row padding row :: rest =>
      match report.emitter.run (pencil.row padding row) with
      | (emitter, none) => perform pencil { report with emitter } rest
      | (emitter, some failure) => { report with emitter, failure := some failure }

def pencil (options : Options) (theme : Theme) (diagnostic : Diagnostic) : Pencil :=
  { glyphs := options.glyphs, theme, severity := diagnostic.severity }

/-- Draws one more diagnostic. It counts only if it was drawn completely. -/
def add (lookup : Lookup) (options : Options) (theme : Theme) (report : Report)
    (diagnostic : Diagnostic) : Report :=
  let drawn :=
    report.perform (pencil options theme diagnostic) (View.steps lookup options diagnostic)
  if drawn.failure.isSome then drawn else { drawn with count := drawn.count + 1 }

def addAll (lookup : Lookup) (options : Options) (theme : Theme) (report : Report) :
    List Diagnostic → Report
  | [] => report
  | diagnostic :: rest =>
      let next := report.add lookup options theme diagnostic
      if next.failure.isSome then next else next.addAll lookup options theme rest

/-- Draws diagnostics in order, and tells how many when all are drawn. -/
def emitAll (lookup : Lookup) (options : Options) (theme : Theme) (emitter : Emitter)
    (diagnostics : List Diagnostic) : Report :=
  let report := addAll lookup options theme { emitter } diagnostics
  if report.failure.isSome then report
  else { report with traces := report.traces ++ [.emitted report.count] }

/-- The report as one text, or the failure at which it ended. -/
def text (lookup : Lookup) (options : Options) (theme : Theme) (kind : EmitterKind)
    (diagnostics : List Diagnostic) : Except Failure String :=
  let report := emitAll lookup options theme { kind } diagnostics
  match report.failure with
  | some failure => .error failure
  | none => .ok report.emitter.sink.written

end Report
end SourceReport

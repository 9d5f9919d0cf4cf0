import SourceReport.Emitter

/-!
# Traces

What a run tells about its own progress, apart from its output.
-/

namespace SourceReport

inductive Trace where
  | defaultsUsed
  | settingsLoaded (path : String)
  | fileLoaded (name : String) (bytes : Nat)
  | documentLoaded (diagnostics : Nat) (path : String)
  | emitterChosen (kind : EmitterKind)
  | planned (labels files padding : Nat)
  | drawing (shown total : Nat) (name : String)
  | emitted (count : Nat)
  deriving DecidableEq, Repr

namespace Trace

/-- Loading a document is worth a mention; everything else is detail. -/
def isDetail : Trace → Bool
  | .documentLoaded _ _ => false
  | _ => true

def line : Trace → String
  | .defaultsUsed => "diagspan.config: No pyproject.toml found, using defaults"
  | .settingsLoaded path => "diagspan.config: Loaded [tool.diagspan] from " ++ path
  | .fileLoaded name bytes => s!"diagspan.cli: Loaded file {name} ({bytes} bytes)"
  | .documentLoaded count path => s!"diagspan.cli: Loaded {count} diagnostic(s) from {path}"
  | .emitterChosen kind => "diagspan.cli: Rendering with the " ++ kind.name ++ " emitter"
  | .planned labels files padding =>
      s!"diagspan.layout: Planned {labels} label(s) across {files} file(s), outer padding {padding}"
  | .drawing shown total name =>
      s!"diagspan.views: Rendering {shown} of {total} planned line(s) from {name}"
  | .emitted count => s!"diagspan.runner: Emitted {count} diagnostic(s)"

end Trace
end SourceReport

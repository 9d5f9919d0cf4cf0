import SourceReport.Severity

/-!
# Styles and themes

A style holds the visual attributes of a piece of text. A theme gives every role that text can play
in a report its style.
-/

namespace SourceReport

structure Style where
  foreground : Option Color := none
  background : Option Color := none
  bold : Bool := false
  underline : Bool := false
  intense : Bool := false
  deriving DecidableEq, Repr

namespace Style

def plain : Style := {}

def isPlain (style : Style) : Bool :=
  style = plain

end Style

/-- What a piece of text is in a report. -/
inductive Role where
  | header (severity : Severity)
  | headerMessage
  | label (severity : Severity) (style : LabelStyle)
  | lineNumber
  | sourceBorder
  | noteBullet
  deriving DecidableEq, Repr

namespace Role

def name : Role → String
  | .header severity => "header-" ++ severity.name
  | .headerMessage => "header-message"
  | .label severity style => "label-" ++ style.name ++ "-" ++ severity.name
  | .lineNumber => "line-number"
  | .sourceBorder => "source-border"
  | .noteBullet => "note-bullet"

end Role

structure Theme where
  header : Severity → Style
  headerMessage : Style
  label : Severity → LabelStyle → Style
  lineNumber : Style
  sourceBorder : Style
  noteBullet : Style

namespace Theme

def style (theme : Theme) : Role → Style
  | .header severity => theme.header severity
  | .headerMessage => theme.headerMessage
  | .label severity labelStyle => theme.label severity labelStyle
  | .lineNumber => theme.lineNumber
  | .sourceBorder => theme.sourceBorder
  | .noteBullet => theme.noteBullet

def noColor : Theme where
  header _ := .plain
  headerMessage := .plain
  label _ _ := .plain
  lineNumber := .plain
  sourceBorder := .plain
  noteBullet := .plain

/-- Headers and primary labels in the color of their severity, all drawing in cyan. -/
def standardColor : Theme where
  header severity := { foreground := some severity.color, bold := true, intense := true }
  headerMessage := { bold := true, intense := true }
  label severity style :=
    match style with
    | .primary => { foreground := some severity.color }
    | .secondary => { foreground := some .cyan }
  lineNumber := { foreground := some .cyan }
  sourceBorder := { foreground := some .cyan }
  noteBullet := { foreground := some .cyan }

theorem style_noColor (role : Role) : noColor.style role = .plain := by
  cases role <;> rfl

end Theme
end SourceReport

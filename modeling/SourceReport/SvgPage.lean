import SourceReport.Text.Split

/-!
# SVG pages

A page that shows markup output in the colors of a terminal. Its height follows the number of lines.
-/

namespace SourceReport
namespace SvgPage

def margin : Nat := 10
def fontSize : Nat := 12
def lineSpacing : Nat := 3
def width : Nat := 882

def height (content : String) : Nat :=
  margin + (splitLines content.toList).length * (fontSize + lineSpacing) + margin

/-!
# The style sheet
-/

structure Rule where
  selectors : List String
  declarations : List String

namespace Rule

def text (rule : Rule) : String :=
  ",\n".intercalate (rule.selectors.map ("    pre" ++ ·)) ++ " \x7b\n" ++
    String.join (rule.declarations.map fun one => "      " ++ one ++ ";\n") ++ "    \x7d\n"

end Rule

def bold : String := "font-weight: bold"

def rules : List Rule :=
  [ ⟨[""],
      [ "background: #1d1f21",
        "margin: 0",
        s!"padding: {margin}px",
        "border-radius: 6px",
        "color: #ffffff",
        s!"font: {fontSize}px SFMono-Regular, Consolas, Liberation Mono, Menlo, monospace" ]⟩,
    ⟨[" .bold"], [bold]⟩,
    ⟨[" .header-bug", " .header-error"], ["color: #cc6666", bold]⟩,
    ⟨[" .header-warning"], ["color: #f0c674", bold]⟩,
    ⟨[" .header-note"], ["color: #b5bd68", bold]⟩,
    ⟨[" .header-help"], ["color: #8abeb7", bold]⟩,
    ⟨[" .header-message"], ["color: #c5c8c6", bold]⟩,
    ⟨[" .line-number", " .source-border", " .note-bullet"], ["color: #81a2be"]⟩,
    ⟨[" .label-primary-bug", " .label-primary-error"], ["color: #cc6666"]⟩,
    ⟨[" .label-primary-warning"], ["color: #f0c674"]⟩,
    ⟨[" .label-primary-note"], ["color: #b5bd68"]⟩,
    ⟨[" .label-primary-help"], ["color: #8abeb7"]⟩,
    ⟨[ " .label-secondary-bug", " .label-secondary-error", " .label-secondary-warning",
        " .label-secondary-note", " .label-secondary-help" ], ["color: #81a2be"]⟩ ]

def palette : String :=
  "https://github.com/aaron-williamson/base16-alacritty/blob/master/colors/" ++
    "base16-tomorrow-night-256.yml"

def styleSheet : String :=
  "  <style>\n    /* " ++ palette ++ " */\n" ++ "\n".intercalate (rules.map Rule.text) ++
    "  </style>\n"

/-!
# The page
-/

def page (content : String) : String :=
  let size := height content
  s!"<svg viewBox=\"0 0 {width} {size}\" xmlns=\"http://www.w3.org/2000/svg\">\n" ++
    styleSheet ++ "\n" ++
    s!"  <foreignObject x=\"0\" y=\"0\" width=\"{width}\" height=\"{size}\">\n" ++
    "    <div xmlns=\"http://www.w3.org/1999/xhtml\">\n" ++
    "      <pre>" ++ content ++ "</pre>\n" ++
    "    </div>\n  </foreignObject>\n</svg>\n"

end SvgPage
end SourceReport

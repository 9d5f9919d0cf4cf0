/-!
# Severities and label styles

Severities ascend from help to bug. A primary label outranks a secondary one.
-/

namespace SourceReport

inductive Color where
  | black | red | green | yellow | blue | magenta | cyan | white
  deriving DecidableEq, Repr

namespace Color

def all : List Color := [.black, .red, .green, .yellow, .blue, .magenta, .cyan, .white]

def name : Color → String
  | .black => "black"
  | .red => "red"
  | .green => "green"
  | .yellow => "yellow"
  | .blue => "blue"
  | .magenta => "magenta"
  | .cyan => "cyan"
  | .white => "white"

/-- The name with a capital letter. -/
def title : Color → String
  | .black => "Black"
  | .red => "Red"
  | .green => "Green"
  | .yellow => "Yellow"
  | .blue => "Blue"
  | .magenta => "Magenta"
  | .cyan => "Cyan"
  | .white => "White"

def ofName? (name : String) : Option Color :=
  all.find? (·.name = name)

/-- The place among the eight base colors of a terminal. -/
def offset : Color → Nat
  | .black => 0
  | .red => 1
  | .green => 2
  | .yellow => 3
  | .blue => 4
  | .magenta => 5
  | .cyan => 6
  | .white => 7

end Color

inductive Severity where
  | help | note | warning | error | bug
  deriving DecidableEq, Repr

namespace Severity

def all : List Severity := [.help, .note, .warning, .error, .bug]

def name : Severity → String
  | .help => "help"
  | .note => "note"
  | .warning => "warning"
  | .error => "error"
  | .bug => "bug"

def ofName? (name : String) : Option Severity :=
  all.find? (·.name = name)

def rank : Severity → Nat
  | .help => 0
  | .note => 1
  | .warning => 2
  | .error => 3
  | .bug => 4

instance : LT Severity := ⟨fun a b => a.rank < b.rank⟩

instance : LE Severity := ⟨fun a b => a.rank ≤ b.rank⟩

instance (a b : Severity) : Decidable (a < b) := Nat.decLt a.rank b.rank

instance (a b : Severity) : Decidable (a ≤ b) := Nat.decLe a.rank b.rank

instance : Max Severity := ⟨fun a b => if a < b then b else a⟩

/-- The color that a terminal conventionally shows a severity in. -/
def color : Severity → Color
  | .bug => .red
  | .error => .red
  | .warning => .yellow
  | .note => .green
  | .help => .cyan

end Severity

inductive LabelStyle where
  | primary | secondary
  deriving DecidableEq, Repr

namespace LabelStyle

def all : List LabelStyle := [.primary, .secondary]

def name : LabelStyle → String
  | .primary => "primary"
  | .secondary => "secondary"

def ofName? (name : String) : Option LabelStyle :=
  all.find? (·.name = name)

/-- The stronger of several styles, if there is any. -/
def strongest? (styles : List LabelStyle) : Option LabelStyle :=
  if .primary ∈ styles then some .primary
  else if .secondary ∈ styles then some .secondary
  else none

end LabelStyle
end SourceReport

import SourceReport.Toml.Moment
import SourceReport.Toml.Strings
import SourceReport.Value

/-!
# Reading TOML

A TOML text as a table: tables and arrays of tables, bare, quoted and dotted keys, strings, integers,
floats, truth values, dates and times, arrays and inline tables. A key is given once, and a table is
opened once.
-/

namespace SourceReport
namespace Toml

/-- Drops a comment up to the end of its line. -/
def skipComment? (text : List Char) : Option (List Char) :=
  match text with
  | '#' :: rest =>
      let comment := rest.takeWhile (· ≠ '\n')
      if comment.any isIllegal then none else some (rest.drop comment.length)
  | _ => some text

/-- Ends a line: blanks and a comment may stand before its end. -/
def lineEnd? (text : List Char) : Option (List Char) :=
  match skipComment? (skipBlanks text) with
  | some [] => some []
  | some ('\n' :: rest) => some rest
  | _ => none

/-- Skips blanks, line ends and comments between the items of an array. -/
def skipSpace? (fuel : Nat) (text : List Char) : Option (List Char) :=
  match fuel with
  | 0 => none
  | fuel + 1 =>
      match text.dropWhile fun c => isBlank c || c = '\n' with
      | '#' :: rest =>
          match skipComment? ('#' :: rest) with
          | some after => skipSpace? fuel after
          | none => none
      | after => some after

/-!
# Keys
-/

def isBare (c : Char) : Bool :=
  c.isAlphanum || c = '-' || c = '_'

/-- Whether a line that begins with the character begins with a key. -/
def beginsKey (c : Char) : Bool :=
  isBare c || c = '"' || c = '\''

def keyPart? (text : List Char) : Option (String × List Char) :=
  match text with
  | '"' :: rest => basic? rest
  | '\'' :: rest => literal? rest
  | _ =>
      let bare := text.takeWhile isBare
      if bare.isEmpty then none else some (String.ofList bare, text.drop bare.length)

abbrev Key := List String

/-- A key: parts with points between them, and the blanks behind it. The fuel bounds the parts. -/
def key? (fuel : Nat) (text : List Char) : Option (Key × List Char) :=
  match fuel with
  | 0 => none
  | fuel + 1 =>
      match keyPart? text with
      | none => none
      | some (part, rest) =>
          match skipBlanks rest with
          | '.' :: more =>
              (key? fuel (skipBlanks more)).map fun (parts, after) => (part :: parts, after)
          | after => some ([part], after)

/-!
# Numbers
-/

/-- An integer in another base after its prefix. Only decimal integers are limited in length. -/
def basedInteger? (base : Nat) (text : List Char) : Option (Scalar × List Char) :=
  match Digits.grouped base text with
  | ([], _) => none
  | (digits, rest) => some (.int (Digits.number base digits), rest)

def named? (negative : Bool) (text : List Char) : Option (Scalar × List Char) :=
  match text with
  | 'i' :: 'n' :: 'f' :: rest => some (.real (.infinite negative), rest)
  | 'n' :: 'a' :: 'n' :: rest => some (.real .notANumber, rest)
  | _ => none

/-- A decimal number, or the name of one that has no digits. -/
def decimal (negative : Bool) (text : List Char) : Except Unreadable (Scalar × List Char) :=
  match Numeral.read? (Digits.grouped 10) negative text with
  | some (numeral, rest) =>
      ((Scalar.ofNumeral numeral).map fun found => (found, rest)).mapError .fault
  | none => Unreadable.required (named? negative text)

def number (text : List Char) : Except Unreadable (Scalar × List Char) :=
  match text with
  | '0' :: 'x' :: rest => Unreadable.required (basedInteger? 16 rest)
  | '0' :: 'o' :: rest => Unreadable.required (basedInteger? 8 rest)
  | '0' :: 'b' :: rest => Unreadable.required (basedInteger? 2 rest)
  | '-' :: rest => decimal true rest
  | '+' :: rest => decimal false rest
  | _ => decimal false text

def text? (text : List Char) : Option (Scalar × List Char) :=
  (string? text).map fun (s, rest) => (.text s, rest)

/-- What a reader took from a text, in its spelling there. -/
def spelling (text rest : List Char) : String :=
  String.ofList (text.take (text.length - rest.length))

/-- A date, with a time or without, or a time of day; else a number. -/
def momentOrNumber (text : List Char) : Except Unreadable (Scalar × List Char) :=
  let moment (rest : List Char) : Except Unreadable (Scalar × List Char) :=
    .ok (.moment (spelling text rest), rest)
  match date? text, afterTime? text with
  | some (date, rest), _ =>
      if date.inCalendar then moment (skipTimeOfDate rest) else .error .malformed
  | none, some rest => moment rest
  | none, none => number text

def scalar (text : List Char) : Except Unreadable (Scalar × List Char) :=
  match text with
  | 't' :: 'r' :: 'u' :: 'e' :: rest => .ok (.bool true, rest)
  | 'f' :: 'a' :: 'l' :: 's' :: 'e' :: rest => .ok (.bool false, rest)
  | '"' :: _ => Unreadable.required (text? text)
  | '\'' :: _ => Unreadable.required (text? text)
  | _ => momentOrNumber text

/-!
# Tables under construction

A path leads from the root through tables, and through the last table of an array of tables.
-/

/-- Changes the fields of the table at a path, making the tables on the way. Nothing is returned if
the path leads through something else than tables, or if the change fails. -/
def changeAt (change : Fields → Option Fields) : Key → Fields → Option Fields
  | [], fields => change fields
  | part :: path, fields =>
      match Value.field? fields part with
      | none => (changeAt change path []).map fun inner => Value.insert part (.table inner) fields
      | some (.table inner) =>
          (changeAt change path inner).map fun inner => Value.insert part (.table inner) fields
      | some (.list items) =>
          match items.reverse with
          | .table inner :: before =>
              (changeAt change path inner).map fun inner =>
                Value.insert part (.list (before.reverse ++ [.table inner])) fields
          | _ => none
      | some (.scalar _) => none

def addField (name : String) (value : Value) (fields : Fields) : Option Fields :=
  match Value.field? fields name with
  | some _ => none
  | none => some (Value.insert name value fields)

def addItem (name : String) (fields : Fields) : Option Fields :=
  match Value.field? fields name with
  | none => some (Value.insert name (.list [.table []]) fields)
  | some (.list items) => some (Value.insert name (.list (items ++ [.table []])) fields)
  | some _ => none

/-!
# Arrays and inline tables
-/

/-- The most arrays and inline tables that may lie within each other. -/
def maxDepth : Nat := 490

mutual

def value (fuel depth : Nat) (text : List Char) : Except Unreadable (Value × List Char) :=
  match fuel with
  | 0 => .error .malformed
  | fuel + 1 =>
      match text with
      | '[' :: rest =>
          match depth with
          | 0 => .error (.fault .tooDeep)
          | depth + 1 => do
              let (items, rest) ← items fuel depth rest
              return (.list items, rest)
      | '\x7b' :: rest =>
          match depth with
          | 0 => .error (.fault .tooDeep)
          | depth + 1 =>
              match skipBlanks rest with
              | '\x7d' :: after => .ok (.table [], after)
              | rest => inlineFields fuel depth [] [] rest
      | text => do
          let (scalar, rest) ← scalar text
          return (.scalar scalar, rest)

/-- The items of an array up to its closing bracket; a comma may stand behind the last one. -/
def items (fuel depth : Nat) (text : List Char) : Except Unreadable (List Value × List Char) :=
  match fuel with
  | 0 => .error .malformed
  | fuel + 1 =>
      match skipSpace? (text.length + 1) text with
      | none => .error .malformed
      | some (']' :: after) => .ok ([], after)
      | some rest => do
          let (item, rest) ← value fuel depth rest
          match skipSpace? (rest.length + 1) rest with
          | some (']' :: after) => return ([item], after)
          | some (',' :: more) =>
              let (others, rest) ← items fuel depth more
              return (item :: others, rest)
          | _ => .error .malformed

/-- The fields of an inline table. Tables that a field's value made cannot be entered again. -/
def inlineFields (fuel depth : Nat) (fields : Fields) (closed : List Key) (text : List Char) :
    Except Unreadable (Value × List Char) :=
  match fuel with
  | 0 => .error .malformed
  | fuel + 1 =>
      match key? (text.length + 1) text with
      | some (path, '=' :: rest) => do
          let (inner, rest) ← value fuel depth (skipBlanks rest)
          if closed.any (·.isPrefixOf path.dropLast) then .error .malformed
          else
            let name := path.getLastD ""
            let fields ←
              Unreadable.required (changeAt (addField name inner) path.dropLast fields)
            let closed :=
              match inner with
              | .scalar _ => closed
              | _ => path :: closed
            match skipBlanks rest with
            | '\x7d' :: after => return (.table fields, after)
            | ',' :: more => inlineFields fuel depth fields closed (skipBlanks more)
            | _ => .error .malformed
      | _ => .error .malformed

end

/-!
# Documents
-/

/-- The table read so far; the tables that may not be opened again; the tables and arrays that may
not be entered at all; the table that key lines add to, and the tables that its dotted keys made. -/
structure State where
  root : Fields := []
  opened : List Key := []
  closed : List Key := []
  header : Key := []
  pending : List Key := []

namespace State

def isClosed (state : State) (path : Key) : Bool :=
  state.closed.any (·.isPrefixOf path)

/-- The paths between a table and the last part of a dotted key. -/
def pathsWithin (header : Key) (parts : Key) : List Key :=
  (List.range parts.length).map fun count => header ++ parts.take (count + 1)

def addKey (state : State) (key : Key) (value : Value) : Option State :=
  let inner := key.dropLast
  let made := pathsWithin state.header inner
  let parent := state.header ++ inner
  if made.any state.opened.contains ∨ state.isClosed parent then none
  else
    match changeAt (addField (key.getLastD "") value) parent state.root with
    | none => none
    | some root =>
        let closed :=
          match value with
          | .scalar _ => state.closed
          | _ => (state.header ++ key) :: state.closed
        some { state with root, closed, pending := made ++ state.pending }

/-- Tables made by dotted keys count as opened once the next table begins. -/
def settle (state : State) : State :=
  { state with opened := state.pending ++ state.opened, pending := [] }

def openTable (state : State) (key : Key) : Option State :=
  let state := state.settle
  if state.opened.contains key ∨ state.isClosed key then none
  else
    match changeAt some key state.root with
    | none => none
    | some root => some { state with root, opened := key :: state.opened, header := key }

def openItem (state : State) (key : Key) : Option State :=
  let state := state.settle
  if state.isClosed key then none
  else
    match changeAt (addItem (key.getLastD "")) key.dropLast state.root with
    | none => none
    | some root =>
        let isOutside (path : Key) : Bool := !key.isPrefixOf path
        some {
          state with
          root, header := key
          opened := key :: state.opened.filter isOutside
          closed := state.closed.filter isOutside }

end State

/-- One line that is not empty: a key with its value, or the head of a table. -/
def line (state : State) (text : List Char) : Except Unreadable (State × List Char) :=
  match text with
  | '[' :: '[' :: rest =>
      match key? (rest.length + 1) (skipBlanks rest) with
      | some (key, ']' :: ']' :: after) => do
          return (← Unreadable.required (state.openItem key), after)
      | _ => .error .malformed
  | '[' :: rest =>
      match key? (rest.length + 1) (skipBlanks rest) with
      | some (key, ']' :: after) => do
          return (← Unreadable.required (state.openTable key), after)
      | _ => .error .malformed
  | _ =>
      match key? (text.length + 1) text with
      | some (key, '=' :: rest) => do
          let (found, after) ← value (2 * rest.length + 2) maxDepth (skipBlanks rest)
          return (← Unreadable.required (state.addKey key found), after)
      | _ => .error .malformed

def beginsLine (c : Char) : Bool :=
  c = '[' || beginsKey c

/-- Reads lines to the end of the text. Each takes at least one character. -/
def lines (fuel : Nat) (state : State) (text : List Char) : Except Unreadable Fields :=
  match fuel with
  | 0 => .error .malformed
  | fuel + 1 =>
      match skipBlanks text with
      | [] => .ok state.root
      | '\n' :: rest => lines fuel state rest
      | c :: rest => do
          let (state, rest) ←
            if beginsLine c then line state (c :: rest) else .ok (state, c :: rest)
          match lineEnd? rest with
          | some [] => return state.root
          | some after => lines fuel state after
          | none => .error .malformed

def joinLineEnds : List Char → List Char
  | '\r' :: '\n' :: rest => '\n' :: joinLineEnds rest
  | c :: rest => c :: joinLineEnds rest
  | [] => []

/-- A whole text as a table. -/
def read (text : List Char) : Except Unreadable Fields :=
  lines (text.length + 1) {} (joinLineEnds text)

end Toml
end SourceReport

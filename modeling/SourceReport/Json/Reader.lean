import SourceReport.Text.Digits
import SourceReport.Value

/-!
# Reading JSON

A JSON text as a value. Of several fields with one name the last counts. Numbers without fraction
and exponent are integers; the names of infinities and of what is no number are read too. Each
reader returns what it read and the rest of the text.
-/

namespace SourceReport
namespace Json

def isBlank (c : Char) : Bool :=
  c = ' ' || c = '\t' || c = '\n' || c = '\r'

def skipBlanks (text : List Char) : List Char :=
  text.dropWhile isBlank

/-- Takes a fixed word from the start of a text. -/
def word? (word : String) (text : List Char) : Option (List Char) :=
  let letters := word.toList
  if letters.isPrefixOf text then some (text.drop letters.length) else none

/-!
# Strings
-/

def unitOf (code : Nat) : TextUnit :=
  if 0xD800 ≤ code ∧ code ≤ 0xDFFF then .surrogate code else .char (Char.ofNat code)

def simpleEscape? : Char → Option Char
  | '"' => some '"'
  | '\\' => some '\\'
  | '/' => some '/'
  | 'b' => some '\x08'
  | 'f' => some '\x0c'
  | 'n' => some '\n'
  | 'r' => some '\r'
  | 't' => some '\t'
  | _ => none

/-- The rest of a string after its opening quotation mark, escape by escape. -/
def stringRest : List Char → Option (List TextUnit × List Char)
  | [] => none
  | '"' :: rest => some ([], rest)
  | '\\' :: 'u' :: a :: b :: c :: d :: rest =>
      match Digits.fixed? 16 4 [a, b, c, d] with
      | some (code, _) => (stringRest rest).map fun (units, last) => (unitOf code :: units, last)
      | none => none
  | '\\' :: letter :: rest =>
      match simpleEscape? letter with
      | some c => (stringRest rest).map fun (units, last) => (.char c :: units, last)
      | none => none
  | c :: rest =>
      if c = '\\' ∨ c.toNat < 0x20 then none
      else (stringRest rest).map fun (units, last) => (.char c :: units, last)

/-- The character of a high and a low surrogate. -/
def paired? (high low : Nat) : Option Char :=
  if 0xD800 ≤ high ∧ high ≤ 0xDBFF ∧ 0xDC00 ≤ low ∧ low ≤ 0xDFFF then
    some (Char.ofNat (0x10000 + (high - 0xD800) * 0x400 + (low - 0xDC00)))
  else none

/-- Makes characters of the surrogates that stand in pairs. -/
def pairUp : List TextUnit → List TextUnit
  | .surrogate high :: .surrogate low :: rest =>
      match paired? high low with
      | some c => .char c :: pairUp rest
      | none => .surrogate high :: pairUp (.surrogate low :: rest)
  | unit :: rest => unit :: pairUp rest
  | [] => []

def string? (text : List Char) : Option (Text × List Char) :=
  (stringRest text).map fun (units, rest) => (.ofUnits (pairUp units), rest)

/-!
# Numbers and names
-/

def unsigned (negative : Bool) (text : List Char) : Except Unreadable (Scalar × List Char) := do
  let (numeral, rest) ← Unreadable.required (Numeral.read? (Digits.span 10) negative text)
  let scalar ← (Scalar.ofNumeral numeral).mapError .fault
  return (scalar, rest)

def number (text : List Char) : Except Unreadable (Scalar × List Char) :=
  match text with
  | '-' :: rest =>
      match word? "Infinity" rest with
      | some rest => .ok (.real (.infinite true), rest)
      | none => unsigned true rest
  | _ => unsigned false text

def namedScalar? (text : List Char) : Option (Scalar × List Char) :=
  let named (word : String) (scalar : Scalar) : Option (Scalar × List Char) :=
    (word? word text).map fun rest => (scalar, rest)
  named "null" .null <|> named "true" (.bool true) <|> named "false" (.bool false) <|>
    named "NaN" (.real .notANumber) <|> named "Infinity" (.real (.infinite false))

def scalar (text : List Char) : Except Unreadable (Scalar × List Char) :=
  match namedScalar? text with
  | some found => .ok found
  | none => number text

/-!
# Values

Each value takes at least one character, and at most two readers are entered for a character, so
twice the length of the text is fuel enough. How many lists and tables may lie within each other is
counted apart from it.
-/

/-- The most lists and tables that may lie within each other. -/
def maxDepth : Nat := 985

mutual

def value (fuel depth : Nat) (text : List Char) : Except Unreadable (Value × List Char) :=
  match fuel with
  | 0 => .error .malformed
  | fuel + 1 =>
      match text with
      | '"' :: rest => do
          let (t, rest) ← Unreadable.required (string? rest)
          return (.scalar (.text t), rest)
      | '[' :: rest =>
          match depth with
          | 0 => .error (.fault .tooDeep)
          | depth + 1 =>
              match skipBlanks rest with
              | ']' :: after => .ok (.list [], after)
              | rest => do
                  let (items, rest) ← items fuel depth rest
                  return (.list items, rest)
      | '\x7b' :: rest =>
          match depth with
          | 0 => .error (.fault .tooDeep)
          | depth + 1 =>
              match skipBlanks rest with
              | '\x7d' :: after => .ok (.table [], after)
              | rest => fields fuel depth [] rest
      | text => do
          let (scalar, rest) ← scalar text
          return (.scalar scalar, rest)

/-- The items of a list up to its closing bracket. -/
def items (fuel depth : Nat) (text : List Char) : Except Unreadable (List Value × List Char) :=
  match fuel with
  | 0 => .error .malformed
  | fuel + 1 => do
      let (item, rest) ← value fuel depth text
      match skipBlanks rest with
      | ']' :: after => return ([item], after)
      | ',' :: more =>
          let (others, rest) ← items fuel depth (skipBlanks more)
          return (item :: others, rest)
      | _ => .error .malformed

/-- The fields of a table up to its closing brace, added to those before them. -/
def fields (fuel depth : Nat) (before : Fields) (text : List Char) :
    Except Unreadable (Value × List Char) :=
  match fuel with
  | 0 => .error .malformed
  | fuel + 1 =>
      match text with
      | '"' :: rest => do
          let (name, rest) ← Unreadable.required (string? rest)
          match skipBlanks rest with
          | ':' :: rest =>
              let (inner, rest) ← value fuel depth (skipBlanks rest)
              let found := Value.insert name inner before
              match skipBlanks rest with
              | '\x7d' :: after => return (.table found, after)
              | ',' :: more => fields fuel depth found (skipBlanks more)
              | _ => .error .malformed
          | _ => .error .malformed
      | _ => .error .malformed

end

/-- A whole text as one value. -/
def read (text : List Char) : Except Unreadable Value := do
  let (found, rest) ← value (2 * text.length + 2) maxDepth (skipBlanks text)
  if (skipBlanks rest).isEmpty then return found else .error .malformed

end Json
end SourceReport

import SourceReport.Text.Digits

/-!
# Strings of TOML

A string stands between quotation marks, in which escapes are read, or between apostrophes, in which
nothing is escaped. Between three marks on either side a string may run over several lines.
-/

namespace SourceReport
namespace Toml

def isBlank (c : Char) : Bool :=
  c = ' ' || c = '\t'

def skipBlanks (text : List Char) : List Char :=
  text.dropWhile isBlank

/-- Control characters other than the tab stand nowhere, not even in comments. -/
def isIllegal (c : Char) : Bool :=
  (c.toNat < 0x20 && c ≠ '\t') || c.toNat = 0x7F

def simpleEscape? : Char → Option Char
  | '"' => some '"'
  | '\\' => some '\\'
  | 'b' => some '\x08'
  | 'f' => some '\x0c'
  | 'n' => some '\n'
  | 'r' => some '\r'
  | 't' => some '\t'
  | _ => none

def codeEscape? (count : Nat) (text : List Char) : Option (Char × List Char) :=
  match Digits.fixed? 16 count text with
  | some (code, rest) =>
      if code.isValidChar then some (Char.ofNat code, rest) else none
  | none => none

def escape? : List Char → Option (Char × List Char)
  | 'u' :: rest => codeEscape? 4 rest
  | 'U' :: rest => codeEscape? 8 rest
  | letter :: rest => (simpleEscape? letter).map fun c => (c, rest)
  | [] => none

/-!
# Strings on one line
-/

/-- The rest of a basic string after its opening quotation mark. The fuel bounds its length. -/
def basicRest (fuel : Nat) (text : List Char) : Option (List Char × List Char) :=
  match fuel, text with
  | 0, _ => none
  | _, [] => none
  | fuel + 1, c :: rest =>
      if c = '"' then some ([], rest)
      else if c = '\\' then
        match escape? rest with
        | none => none
        | some (escaped, after) =>
            (basicRest fuel after).map fun (chars, last) => (escaped :: chars, last)
      else if isIllegal c then none
      else (basicRest fuel rest).map fun (chars, last) => (c :: chars, last)

def basic? (text : List Char) : Option (String × List Char) :=
  (basicRest (text.length + 1) text).map fun (chars, rest) => (String.ofList chars, rest)

/-- The rest of a literal string, in which nothing is escaped. -/
def literal? (text : List Char) : Option (String × List Char) :=
  let chars := text.takeWhile (· ≠ '\'')
  match text.drop chars.length with
  | '\'' :: rest => if chars.any isIllegal then none else some (String.ofList chars, rest)
  | _ => none

/-!
# Strings over several lines
-/

def isIllegalInside (c : Char) : Bool :=
  isIllegal c && c ≠ '\n'

/-- What follows a backslash at the end of a line: it takes all blanks and line ends with it. -/
def continuation? (text : List Char) : Option (List Char) :=
  match skipBlanks text with
  | '\n' :: rest => some (rest.dropWhile fun c => isBlank c || c = '\n')
  | _ => none

/-- The characters up to three quotation marks in a row. The fuel bounds their number. -/
def longBasicRest (fuel : Nat) (text : List Char) : Option (List Char × List Char) :=
  match fuel, text with
  | 0, _ => none
  | _, [] => none
  | _, '"' :: '"' :: '"' :: rest => some ([], rest)
  | fuel + 1, '\\' :: rest =>
      match continuation? rest, escape? rest with
      | some after, _ => longBasicRest fuel after
      | none, some (escaped, after) =>
          (longBasicRest fuel after).map fun (chars, last) => (escaped :: chars, last)
      | none, none => none
  | fuel + 1, c :: rest =>
      if isIllegalInside c then none
      else (longBasicRest fuel rest).map fun (chars, last) => (c :: chars, last)

/-- The characters up to three apostrophes in a row. -/
def longLiteralRest : List Char → Option (List Char × List Char)
  | [] => none
  | '\'' :: '\'' :: '\'' :: rest => some ([], rest)
  | c :: rest =>
      if isIllegalInside c then none
      else (longLiteralRest rest).map fun (chars, last) => (c :: chars, last)

/-- A line end right after the opening marks does not count. -/
def withoutFirstBreak : List Char → List Char
  | '\n' :: rest => rest
  | text => text

/-- Of more than three marks at the end, up to two belong to the string. -/
def withExtraMarks (mark : Char) (found : List Char × List Char) : String × List Char :=
  let extra := (found.2.take 2).takeWhile (· = mark)
  (String.ofList (found.1 ++ extra), found.2.drop extra.length)

def longBasic? (text : List Char) : Option (String × List Char) :=
  (longBasicRest (text.length + 1) (withoutFirstBreak text)).map (withExtraMarks '"')

def longLiteral? (text : List Char) : Option (String × List Char) :=
  (longLiteralRest (withoutFirstBreak text)).map (withExtraMarks '\'')

def string? (text : List Char) : Option (String × List Char) :=
  match text with
  | '"' :: '"' :: '"' :: rest => longBasic? rest
  | '"' :: rest => basic? rest
  | '\'' :: '\'' :: '\'' :: rest => longLiteral? rest
  | '\'' :: rest => literal? rest
  | _ => none

end Toml
end SourceReport

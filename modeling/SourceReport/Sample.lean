import SourceReport.Report

/-!
# The sample diagnostic

A type error in a small program, with labels of both kinds on one line and over several.
-/

namespace SourceReport
namespace Sample

def source : String :=
  "\n".intercalate
    [ "module FizzBuzz where",
      "",
      "fizz₁ : Nat → String",
      "fizz₁ num = case (mod num 5) (mod num 3) of",
      "    0 0 => \"FizzBuzz\"",
      "    0 _ => \"Fizz\"",
      "    _ 0 => \"Buzz\"",
      "    _ _ => num",
      "",
      "fizz₂ : Nat → String",
      "fizz₂ num =",
      "    case (mod num 5) (mod num 3) of",
      "        0 0 => \"FizzBuzz\"",
      "        0 _ => \"Fizz\"",
      "        _ 0 => \"Buzz\"",
      "        _ _ => num" ]

def base : FileBase :=
  .ofSources [("FizzBuzz.fun", source)]

def clauses : String := "`case` clauses have incompatible types"

def foundText : String := "this is found to be of type `String`"

def labels : List Label :=
  [ Label.make .primary (.int 0) 328 331 "expected `String`, found `Nat`",
    Label.make .secondary (.int 0) 211 331 clauses,
    Label.make .secondary (.int 0) 258 268 foundText,
    Label.make .secondary (.int 0) 284 290 foundText,
    Label.make .secondary (.int 0) 306 312 foundText,
    Label.make .secondary (.int 0) 186 192 "expected type `String` found here" ].filterMap
      Except.toOption

def diagnostic : Diagnostic where
  severity := .error
  code := some "E0308"
  message := clauses
  labels := labels
  notes := ["expected type `String`\n   found type `Nat`"]

def report (kind : EmitterKind) : Report :=
  Report.emitAll base.lookup {} kind.theme { kind } [diagnostic]

end Sample
end SourceReport

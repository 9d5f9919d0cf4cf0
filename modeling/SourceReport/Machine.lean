import SourceReport.Fault

/-!
# Machines

Texts are made in a memory, and values are quoted by a recursion. How long a text may become and how
deep a value may be depends on the machine that a report is made on. What is proved of reports and of
settings holds on every machine. The numbers that stand here are those of a usual one, for runs that
do not say what machine they are on.
-/

namespace SourceReport

structure Machine where
  /-- The length of the longest text that there is room for. -/
  room : Nat := Nat.pow 2 36
  /-- How many levels there are for a value that is quoted. -/
  depth : Nat := 985

namespace Machine

/-- The length of the longest text that can be counted. -/
def countable : Nat := Nat.pow 2 63 - 1

/-- The fault that making a text of some length ends with. -/
def lengthFault? (machine : Machine) (length : Nat) : Option Fault :=
  if countable < length then some .uncountable
  else if machine.room < length then some .unaffordable
  else none

end Machine
end SourceReport

/-!
# Lines of a source

A line begins at the start of the source and after every newline byte. The line that holds an
offset is found by halving the list of line starts.
-/

namespace SourceReport
namespace Lines

def newline : UInt8 := 0x0A

/-- The offsets just after each newline of bytes that begin at `offset`. -/
def startsAfter (offset : Nat) : List UInt8 → List Nat
  | [] => []
  | byte :: rest =>
      if byte = newline then (offset + 1) :: startsAfter (offset + 1) rest
      else startsAfter (offset + 1) rest

def starts (bytes : List UInt8) : List Nat :=
  0 :: startsAfter 0 bytes

/-!
# Halving

`upperBound above low high` looks in the range from `low` to `high` for the first index that is
`above`. Where `above` never turns false again, it finds exactly that index.
-/

def upperBound (above : Nat → Bool) (low high : Nat) : Nat :=
  if _h : low < high then
    let middle := (low + high) / 2
    if above middle then upperBound above low middle else upperBound above (middle + 1) high
  else low
termination_by high - low

theorem upperBound_mem (above : Nat → Bool) (low high : Nat) (h : low ≤ high) :
    low ≤ upperBound above low high ∧ upperBound above low high ≤ high := by
  fun_induction upperBound above low high with
  | case1 low high hlt middle habove ih => omega
  | case2 low high hlt middle habove ih => omega
  | case3 low high hlt => omega

theorem upperBound_eq (above : Nat → Bool) (low high bound : Nat)
    (hlow : low ≤ bound) (hhigh : bound ≤ high)
    (hbelow : ∀ i, i < bound → above i = false)
    (habove : ∀ i, bound ≤ i → i < high → above i = true) :
    upperBound above low high = bound := by
  fun_induction upperBound above low high with
  | case1 low high hlt middle hmiddle ih =>
      have hle : bound ≤ middle := by
        by_cases hcase : middle < bound
        · have hfalse := hbelow middle hcase
          simp [hfalse] at hmiddle
        · omega
      exact ih hlow hle (fun i hi hi' => habove i hi (by omega))
  | case2 low high hlt middle hmiddle ih =>
      have hle : middle + 1 ≤ bound := by
        by_cases hcase : bound ≤ middle
        · have htrue := habove middle hcase (by omega)
          simp [htrue] at hmiddle
        · omega
      exact ih hle hhigh habove
  | case3 low high hlt => omega

/-- The line that holds an offset, or the first line for an offset before every start. -/
def lineIndex (starts : List Int) (offset : Int) : Nat :=
  upperBound (fun i => decide (offset < starts.getD i 0)) 0 starts.length - 1

end Lines
end SourceReport

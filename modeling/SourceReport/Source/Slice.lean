import SourceReport.Failure
import SourceReport.Text.Utf8

/-!
# Slices of a source

Offsets count bytes of the encoded source and may be any integers. A range may be read as text only
if both of its ends stand between two characters.
-/

namespace SourceReport
namespace Slice

def isBoundary (bytes : List UInt8) (offset : Int) : Bool :=
  offset = bytes.length ||
    (0 ≤ offset && (bytes[offset.toNat]?).any fun byte => !Utf8.isContinuation byte)

/-- The characters of the range that end at or before `offset`. A character ends where the next one
begins, and the last one where the bytes end. -/
def columnIndex (bytes : List UInt8) (range : Int × Int) (offset : Int) : Nat :=
  let stop := min offset (min range.2 bytes.length)
  let first := max (range.1 + 1) 0
  if stop < first then 0
  else
    ((bytes.drop first.toNat).take (stop + 1 - first).toNat).countP
        (fun byte => !Utf8.isContinuation byte) +
      if stop = bytes.length then 1 else 0

/-- Both ends are held against the length first, then each against the characters. -/
def checkRange (bytes : List UInt8) (start stop : Int) : Except Failure Unit :=
  let length : Int := bytes.length
  if length < start ∨ length < stop then
    .error (.indexTooLarge (max start stop) (max (length - 1) 0))
  else if !isBoundary bytes start then .error (.invalidCharBoundary start)
  else if !isBoundary bytes stop then .error (.invalidCharBoundary stop)
  else .ok ()

/-- The text of a range. A range that ends before it starts is empty. -/
def slice (bytes : List UInt8) (start stop : Int) : Except Failure String :=
  match checkRange bytes start stop with
  | .error failure => .error failure
  | .ok () =>
      match Utf8.decode? ((bytes.drop start.toNat).take (stop - start).toNat) with
      | some text => .ok (String.ofList text)
      | none => .error .undecodable

end Slice
end SourceReport

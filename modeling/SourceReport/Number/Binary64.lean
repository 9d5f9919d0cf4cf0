/-!
# Binary floating-point numbers

A double as the exact value it stands for: a sign, a whole mantissa and a power of two. Reading a
decimal rounds to the nearest double, a tie going to the even mantissa, and writing one picks the
fewest decimal digits that read back to it. All of it is arithmetic on natural numbers.
-/

namespace SourceReport

/-- A finite number is kept with its mantissa below `2^53` and its exponent at least `-1074`, and
with the largest mantissa that these two bounds allow. -/
inductive Binary64 where
  | finite (negative : Bool) (mantissa : Nat) (exponent : Int)
  | infinite (negative : Bool)
  | notANumber
  deriving DecidableEq, Repr

namespace Binary64

/-!
# Reading decimals

A decimal is a whole number of digits times a power of ten. Scaling both sides to a quotient of
naturals leaves one rounding division.
-/

def roundHalfEven (num den : Nat) : Nat :=
  let quotient := num / den
  let rest := num % den
  if 2 * rest < den then quotient
  else if den < 2 * rest then quotient + 1
  else if quotient % 2 = 0 then quotient
  else quotient + 1

/-- The quotient `num / den` scaled by `2^(-exponent)`, as a quotient again. -/
def scaled (num den : Nat) (exponent : Int) : Nat × Nat :=
  if exponent < 0 then (num * Nat.pow 2 exponent.natAbs, den)
  else (num, den * Nat.pow 2 exponent.natAbs)

/-- The exponent that leaves a mantissa of 53 bits, but never below `-1074`. -/
def exponentFor (num den : Nat) : Int :=
  let guess : Int := (num.log2 : Int) - den.log2 - 52
  let (n, d) := scaled num den guess
  let exact := if n / d < Nat.pow 2 52 then guess - 1 else guess
  max exact (-1074)

def ofQuotient (negative : Bool) (num den : Nat) : Binary64 :=
  if num = 0 then .finite negative 0 (-1074)
  else
    let exponent := exponentFor num den
    let (n, d) := scaled num den exponent
    let mantissa := roundHalfEven n d
    let (mantissa, exponent) :=
      if mantissa = Nat.pow 2 53 then (Nat.pow 2 52, exponent + 1) else (mantissa, exponent)
    if 971 < exponent then .infinite negative else .finite negative mantissa exponent

/-- `digits * 10^power`. Powers that no finite double reaches are settled without computing them. -/
def ofDecimal (negative : Bool) (digits : Nat) (power : Int) : Binary64 :=
  let size : Int := (toString digits).length
  if digits = 0 ∨ size + power < -400 then .finite negative 0 (-1074)
  else if 400 < size + power then .infinite negative
  else if power < 0 then ofQuotient negative digits (Nat.pow 10 power.natAbs)
  else ofQuotient negative (digits * Nat.pow 10 power.natAbs) 1

/-!
# Whole numbers
-/

/-- The number without its fraction, if it is finite. -/
def truncated? : Binary64 → Option Int
  | .finite negative mantissa exponent =>
      let whole : Nat :=
        if exponent < 0 then mantissa / Nat.pow 2 exponent.natAbs
        else mantissa * Nat.pow 2 exponent.natAbs
      some (if negative then -whole else whole)
  | .infinite _ => none
  | .notANumber => none

/-- Whether the number is exactly the given integer. -/
def isInt (x : Binary64) (n : Int) : Bool :=
  match x with
  | .finite _ mantissa exponent =>
      (0 ≤ exponent || mantissa % Nat.pow 2 exponent.natAbs = 0) && x.truncated? = some n
  | .infinite _ => false
  | .notANumber => false

/-- Equality of values: both zeros are one number, and what is no number equals nothing. -/
def sameValue : Binary64 → Binary64 → Bool
  | .notANumber, _ => false
  | _, .notANumber => false
  | .finite s m e, .finite s' m' e' => (m = 0 && m' = 0) || (s = s' && m = m' && e = e')
  | .infinite s, .infinite s' => s = s'
  | _, _ => false

/-!
# Shortest digits

The reals that round to a double form an interval around it, with its ends exactly if the mantissa
is even. On the grid of decimals with a given number of digits only the two neighbours of the
double can be the nearest hit, and the first grid with a hit is the shortest.
-/

/-- The value and the two ends of its rounding interval over one denominator, in quarters of the unit
of its last place. -/
structure Interval where
  value : Nat
  lower : Nat
  upper : Nat
  den : Nat
  closed : Bool

def interval (mantissa : Nat) (exponent : Int) : Interval :=
  let step : Nat := if mantissa = Nat.pow 2 52 ∧ -1074 < exponent then 1 else 2
  let up : Nat := if exponent < 0 then 1 else Nat.pow 2 exponent.natAbs
  let den : Nat := if exponent < 0 then 4 * Nat.pow 2 exponent.natAbs else 4
  { value := 4 * mantissa * up
    lower := (4 * mantissa - step) * up
    upper := (4 * mantissa + 2) * up
    den := den
    closed := mantissa % 2 = 0 }

/-- Whether `digits * 10^power` lies in the interval. -/
def Interval.contains (i : Interval) (digits : Nat) (power : Int) : Bool :=
  let point := if power < 0 then digits else digits * Nat.pow 10 power.natAbs
  let unit := if power < 0 then Nat.pow 10 power.natAbs else 1
  if i.closed then i.lower * unit ≤ point * i.den && point * i.den ≤ i.upper * unit
  else i.lower * unit < point * i.den && point * i.den < i.upper * unit

/-- The least power of ten above the value. -/
def Interval.magnitude (i : Interval) : Int :=
  let whole := i.value / i.den
  if 0 < whole then (toString whole).length
  else
    let inverse := i.den / i.value
    let guess : Int := 1 - ((toString inverse).length : Int)
    if i.value * Nat.pow 10 guess.natAbs < i.den then guess else guess + 1

/-- The nearest point with that many digits, if one lies in the interval. -/
def Interval.onGrid (i : Interval) (count : Nat) : Option (Nat × Int) :=
  let power : Int := i.magnitude - count
  let unit := if power < 0 then 1 else Nat.pow 10 power.natAbs
  let num := if power < 0 then i.value * Nat.pow 10 power.natAbs else i.value
  let below := num / (i.den * unit)
  let rest := num % (i.den * unit)
  let lowFits := i.contains below power
  let highFits := i.contains (below + 1) power
  let lowNearer : Bool :=
    2 * rest < i.den * unit || (2 * rest = i.den * unit && below % 2 = 0)
  if lowFits && (lowNearer || !highFits) then some (below, power)
  else if highFits then some (below + 1, power)
  else none

def Interval.shortestFrom (i : Interval) (count : Nat) : Nat → Nat × Int
  | 0 => (i.value / i.den, 0)
  | tries + 1 =>
      match i.onGrid count with
      | some found => found
      | none => i.shortestFrom (count + 1) tries

/-- Seventeen digits always suffice. -/
def shortest (mantissa : Nat) (exponent : Int) : Nat × Int :=
  (interval mantissa exponent).shortestFrom 1 17

/-!
# Layout

Numbers from `10^-4` up to `10^16` are written positionally and keep `.0` when they are whole; all
others are written with an exponent of at least two digits.
-/

def stripZeros (digits : List Char) : List Char :=
  (digits.reverse.dropWhile (· == '0')).reverse

def exponentText (power : Int) : String :=
  let digits := toString power.natAbs
  let padded := if digits.length < 2 then "0" ++ digits else digits
  "e" ++ (if power < 0 then "-" else "+") ++ padded

/-- Lays out digits whose decimal point stands after the first `point` of them. -/
def layout (digits : List Char) (point : Int) : String :=
  if -4 < point ∧ point ≤ 16 then
    if point ≤ 0 then
      "0." ++ String.ofList (List.replicate point.natAbs '0' ++ digits)
    else
      let count := point.toNat
      let whole := digits.take count ++ List.replicate (count - digits.length) '0'
      let fraction := digits.drop count
      String.ofList whole ++ "." ++ String.ofList (if fraction.isEmpty then ['0'] else fraction)
  else
    let first := digits.take 1
    let more := digits.drop 1
    String.ofList first ++ (if more.isEmpty then "" else "." ++ String.ofList more)
      ++ exponentText (point - 1)

def finiteText (mantissa : Nat) (exponent : Int) : String :=
  if mantissa = 0 then "0.0"
  else
    let (digits, power) := shortest mantissa exponent
    let text := (toString digits).toList
    layout (stripZeros text) (text.length + power)

def toText : Binary64 → String
  | .finite negative mantissa exponent =>
      (if negative then "-" else "") ++ finiteText mantissa exponent
  | .infinite negative => if negative then "-inf" else "inf"
  | .notANumber => "nan"

end Binary64
end SourceReport

/-!
Contract: the shortest decimal of a double.

This module owns the choice of the decimal digits that show a finite double:
the fewest digits whose number still rounds to that double, and among those the
number nearest to it, of two that are equally near the greater. All arithmetic
is exact: a double is a natural number times a power of two, and the numbers
that round to it form an interval around it whose ends belong to it when its
own significand is even.
-/

namespace Precis.Decimal

def fractionBits : Nat := 52

def exponentBits : Nat := 11

/-- The magnitude of a double is held by all of its bits but the sign. -/
def magnitudeBits : Nat := fractionBits + exponentBits

/-- A positive double and the numbers that round to it, as fractions with one
denominator: `(numerator - below) / denominator` up to
`(numerator + above) / denominator`. -/
structure Neighbourhood where
  numerator : Nat
  below : Nat
  above : Nat
  denominator : Nat
  closed : Bool

/-- The neighbourhood of the double with the given bits, its sign left aside. -/
def neighbourhood (bits : UInt64) : Neighbourhood :=
  let fraction : Nat := bits.toNat % Nat.pow 2 fractionBits
  let biased : Nat := bits.toNat / Nat.pow 2 fractionBits % Nat.pow 2 exponentBits
  let significand : Nat := if biased = 0 then fraction else fraction + Nat.pow 2 fractionBits
  let shift : Int := (if biased = 0 then 1 else (biased : Int)) - 1075 - 2
  let below : Nat := if fraction = 0 ∧ 1 < biased then 1 else 2
  let scale : Nat := if 0 ≤ shift then Nat.pow 2 shift.toNat else 1
  { numerator := 4 * significand * scale
    below := below * scale
    above := 2 * scale
    denominator := if 0 ≤ shift then 1 else Nat.pow 2 (-shift).toNat
    closed := significand % 2 == 0 }

/-- The exponent of the leading decimal digit of a positive fraction. -/
def leadingExponent (numerator denominator : Nat) : Int :=
  if denominator ≤ numerator then
    ((Nat.toDigits 10 (numerator / denominator)).length : Int) - 1
  else
    let ceiling := (denominator + numerator - 1) / numerator
    0 - ((Nat.toDigits 10 (ceiling - 1)).length : Int)

/-- Whether `digits * 10 ^ exponent` rounds to the double, where both the
number and the neighbourhood are scaled by the same power of ten. -/
def Neighbourhood.holds (around : Neighbourhood) (digits tens units : Nat) : Bool :=
  let candidate := digits * tens * around.denominator
  let low := (around.numerator - around.below) * units
  let high := (around.numerator + around.above) * units
  if around.closed then decide (low ≤ candidate) && decide (candidate ≤ high)
  else decide (low < candidate) && decide (candidate < high)

/-- The nearest number of the given count of digits that rounds to the double,
if one does. Rounding up may carry into one digit more, the last of which is
then a zero and left out. -/
def withDigits? (around : Neighbourhood) (leading : Int) (count : Nat) : Option (Nat × Int) :=
  let exponent := leading - count + 1
  let tens : Nat := if 0 ≤ exponent then Nat.pow 10 exponent.toNat else 1
  let units : Nat := if 0 ≤ exponent then 1 else Nat.pow 10 (-exponent).toNat
  let scaledNumerator := around.numerator * units
  let scaledDenominator := around.denominator * tens
  let floor := scaledNumerator / scaledDenominator
  let remainder := scaledNumerator % scaledDenominator
  let first := if 2 * remainder < scaledDenominator then floor else floor + 1
  let second := if 2 * remainder < scaledDenominator then floor + 1 else floor
  ([first, second].find? fun digits => around.holds digits tens units).map fun digits =>
    if digits = Nat.pow 10 count then (Nat.pow 10 (count - 1), exponent + 1) else (digits, exponent)

/-- The digits and the power of ten of the shortest decimal of a positive finite double. -/
def shortest (bits : UInt64) : Nat × Int :=
  let around := neighbourhood bits
  let leading := leadingExponent around.numerator around.denominator
  ((List.range 17).findSome? fun index => withDigits? around leading (index + 1)).getD (0, 0)

/-- A number of digits times a power of ten written without an exponent, with
at least one digit on each side of the point. -/
def positional (digits : Nat) (exponent : Int) : String :=
  let characters := Nat.toDigits 10 digits
  if 0 ≤ exponent then
    String.ofList (characters ++ List.replicate exponent.toNat '0') ++ ".0"
  else
    let places := (-exponent).toNat
    let padded := List.replicate (places + 1 - characters.length) '0' ++ characters
    String.ofList (padded.take (padded.length - places)) ++ "." ++
      String.ofList (padded.drop (padded.length - places))

/-- The shortest decimal of a finite double, with a point and without an exponent. -/
def text (value : Float) : String :=
  let bits := value.toBits
  let sign := if bits.toNat / Nat.pow 2 magnitudeBits = 1 then "-" else ""
  if bits.toNat % Nat.pow 2 magnitudeBits = 0 then sign ++ "0.0"
  else
    let digits := shortest bits
    sign ++ positional digits.1 digits.2

end Precis.Decimal

import Precis.Decimal.Shortest

/-!
Contract: the numbers of JSON.

This module owns what a number literal denotes. A literal without fraction and
exponent that fits 64 bits, with or without a sign, is an integer; every other
literal is a real, kept as a decimal significand below 2^64 and a power of ten,
together with its double and the question whether that double is finite.
-/

namespace Precis.Json

/-- A number: an integer, or a real `± significand · 10 ^ exponent`. -/
inductive Number where
  | integer (value : Int)
  | real (negative : Bool) (significand : Nat) (exponent : Int)
deriving DecidableEq, Repr

namespace Number

def significandLimit : Nat := 18446744073709551615

/-- Appends digits to a significand as long as it stays within its limit, and
gives the digits that are left. -/
def appendDigits : (significand : Nat) → (digits : List Nat) → Nat × List Nat
  | significand, [] => (significand, [])
  | significand, digit :: rest =>
      if significandLimit < significand * 10 + digit then (significand, digit :: rest)
      else appendDigits (significand * 10 + digit) rest

def ofDigits (digits : List Nat) : Nat :=
  digits.foldl (fun value digit => value * 10 + digit) 0

/-- The real of a literal: digits of the whole part that do not fit raise the
exponent, digits of the fraction that do not fit are dropped. -/
def realOfParts (negative : Bool) (whole fraction : List Nat) (exponent : Int) : Number :=
  let afterWhole := appendDigits 0 whole
  let afterFraction := appendDigits afterWhole.1 fraction
  let kept := fraction.length - afterFraction.2.length
  .real negative afterFraction.1 (exponent + afterWhole.2.length - kept)

/-- The number of a literal with neither fraction nor exponent. A zero with a
minus sign is a real, for no integer keeps the sign. -/
def integerOfDigits (negative : Bool) (whole : List Nat) : Number :=
  let magnitude := ofDigits whole
  if negative then
    if 0 < magnitude ∧ magnitude ≤ 9223372036854775808 then .integer (-(magnitude : Int))
    else realOfParts true whole [] 0
  else if magnitude ≤ significandLimit then .integer magnitude
  else realOfParts false whole [] 0

def tenTo (exponent : Nat) : Float :=
  Float.ofScientific 1 false exponent

/-- The double of `significand · 10 ^ exponent`: one multiplication or one
division by a power of ten, where the power is a double itself; below that, two
divisions. -/
def magnitudeFloat (significand : Nat) (exponent : Int) : Float :=
  let base := (UInt64.ofNat significand).toFloat
  if significand = 0 then 0.0
  else if 308 < exponent then 1.0 / 0.0
  else if 0 ≤ exponent then base * tenTo exponent.toNat
  else if -308 ≤ exponent then base / tenTo (-exponent).toNat
  else if -616 ≤ exponent then base / tenTo 308 / tenTo (-exponent - 308).toNat
  else 0.0

def toFloat : Number → Float
  | .integer value => Float.ofInt value
  | .real negative significand exponent =>
      let magnitude := magnitudeFloat significand exponent
      if negative then -magnitude else magnitude

/-- Whether a number is within the range of the doubles, or an integer. -/
def isFinite : Number → Bool
  | .integer _ => true
  | .real _ significand exponent => (magnitudeFloat significand exponent).isFinite

def text : Number → String
  | .integer value => toString value
  | number => Decimal.text number.toFloat

end Number

end Precis.Json

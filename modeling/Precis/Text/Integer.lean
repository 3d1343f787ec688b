/-!
Contract: integers written in decimal.

This module owns the reading of a decimal integer from a text: an optional
sign, then one or more digits, within the range that the reader asks for. A
minus sign is one only where the range holds negative numbers. Reading goes
from left to right and stops at the first character that is no digit or that
takes the number out of range, so the failure tells which came first.
-/

namespace Precis.Text

/-- The numbers from `least` to `greatest`. -/
structure IntegerRange where
  least : Int
  greatest : Int
  least_nonpositive : least ≤ 0 := by decide
  greatest_nonnegative : 0 ≤ greatest := by decide

namespace IntegerRange

def unsigned32 : IntegerRange := ⟨0, 4294967295, by decide, by decide⟩

def unsigned64 : IntegerRange := ⟨0, 18446744073709551615, by decide, by decide⟩

def signed64 : IntegerRange :=
  ⟨-9223372036854775808, 9223372036854775807, by decide, by decide⟩

end IntegerRange

inductive IntegerError where
  | empty
  | invalidDigit
  | tooLarge
  | tooSmall
deriving DecidableEq, Repr

def IntegerError.message : IntegerError → String
  | .empty => "cannot parse integer from empty string"
  | .invalidDigit => "invalid digit found in string"
  | .tooLarge => "number too large to fit in target type"
  | .tooSmall => "number too small to fit in target type"

def digitValue? (character : Char) : Option Nat :=
  if '0' ≤ character ∧ character ≤ '9' then some (character.toNat - '0'.toNat) else none

/-- The magnitude that a row of digits denotes, continuing from `start`. The
first digit that passes `bound` ends the reading with `overflow`. -/
def readMagnitude
    (bound : Nat)
    (overflow : IntegerError) :
    (start : Nat) → (digits : List Char) → Except IntegerError Nat
  | start, [] => .ok start
  | start, character :: rest =>
      match digitValue? character with
      | none => .error .invalidDigit
      | some digit =>
          let next := start * 10 + digit
          if bound < next then .error overflow
          else readMagnitude bound overflow next rest

def readInteger (range : IntegerRange) : List Char → Except IntegerError Int
  | [] => .error .empty
  | ['+'] => .error .invalidDigit
  | ['-'] => .error .invalidDigit
  | '+' :: digits => (readMagnitude range.greatest.toNat .tooLarge 0 digits).map Int.ofNat
  | '-' :: digits =>
      if range.least < 0 then
        (readMagnitude (-range.least).toNat .tooSmall 0 digits).map fun magnitude =>
          -(Int.ofNat magnitude)
      else .error .invalidDigit
  | digits => (readMagnitude range.greatest.toNat .tooLarge 0 digits).map Int.ofNat

end Precis.Text

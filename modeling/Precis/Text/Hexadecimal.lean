/-!
Contract: hexadecimal digits.

This module owns the digits of base sixteen, their values, and bytes written as
two digits each.
-/

namespace Precis.Text.Hexadecimal

/-- The value of a digit, in either letter case. -/
def value? (digit : Char) : Option Nat :=
  if '0' ≤ digit ∧ digit ≤ '9' then some (digit.toNat - '0'.toNat)
  else if 'a' ≤ digit ∧ digit ≤ 'f' then some (digit.toNat - 'a'.toNat + 10)
  else if 'A' ≤ digit ∧ digit ≤ 'F' then some (digit.toNat - 'A'.toNat + 10)
  else none

/-- The digit of a value below sixteen, in lower case. -/
def digit (value : Nat) : Char :=
  Nat.digitChar value

/-- The bytes that digits denote, if they come in pairs. -/
def decode? : List Char → Option (List UInt8)
  | [] => some []
  | [_] => none
  | high :: low :: rest =>
      match value? high, value? low, decode? rest with
      | some first, some second, some bytes => some (UInt8.ofNat (first * 16 + second) :: bytes)
      | _, _, _ => none

end Precis.Text.Hexadecimal

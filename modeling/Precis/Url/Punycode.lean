/-!
Contract: domain labels past ASCII.

This module owns the reading of the bootstring code by which a label that holds
characters past ASCII is written with letters, digits and hyphens: the ASCII
characters first, then, after a hyphen, the others as variable-length numbers
that say where each is put, in ascending order of code point.
-/

namespace Precis.Url.Punycode

/-- The value of a digit in either letter case. -/
def digitValue? (character : Char) : Option Nat :=
  if 'a' ≤ character ∧ character ≤ 'z' then some (character.toNat - 'a'.toNat)
  else if 'A' ≤ character ∧ character ≤ 'Z' then some (character.toNat - 'A'.toNat)
  else if '0' ≤ character ∧ character ≤ '9' then some (character.toNat - '0'.toNat + 26)
  else none

/-- The threshold of a digit at a position counted in steps of 36. -/
def threshold (position bias : Nat) : Nat :=
  if position ≤ bias then 1 else if bias + 26 ≤ position then 26 else position - bias

/-- Divides by 35 until at most 455 is left, counting the divisions in steps of 36. -/
def settle (delta steps : Nat) : Nat × Nat :=
  if 455 < delta then settle (delta / 35) (steps + 36) else (delta, steps)
termination_by delta
decreasing_by exact Nat.div_lt_self (by omega) (by omega)

/-- The bias after a number has been written or read. -/
def adapt (delta count : Nat) (first : Bool) : Nat :=
  let damped := if first then delta / 700 else delta / 2
  let settled := settle (damped + damped / count) 0
  settled.2 + 36 * settled.1 / (settled.1 + 38)

/-- Reads one number: what it adds, and the digits after it. -/
def readNumber (bias : Nat) :
    List Char → (position weight sum : Nat) → Option (Nat × List Char)
  | [], _, _, _ => none
  | character :: rest, position, weight, sum =>
      match digitValue? character with
      | none => none
      | some digit =>
          let least := threshold position bias
          if digit < least then some (sum + digit * weight, rest)
          else readNumber bias rest (position + 36) (weight * (36 - least)) (sum + digit * weight)

/-- Reads the numbers of a label and puts a character for each of them. -/
def insertAll : (fuel bias point index : Nat) → (label digits : List Char) → Option (List Char)
  | _, _, _, _, label, [] => some label
  | 0, _, _, _, _, _ => none
  | fuel + 1, bias, point, index, label, digits =>
      match readNumber bias digits 36 1 index with
      | none => none
      | some (sum, rest) =>
          let count := label.length + 1
          let code := point + sum / count
          if code.isValidChar then
            insertAll fuel (adapt (sum - index) count (index == 0)) code (sum % count + 1)
              (label.insertIdx (sum % count) (Char.ofNat code)) rest
          else none

/-- The label of a code, without the mark in front. -/
def decode? (code : List Char) : Option (List Char) :=
  let tail := (code.reverse.takeWhile (· != '-')).reverse
  let hasHyphen := code.contains '-'
  let basic := if hasHyphen then code.take (code.length - tail.length - 1) else []
  let digits := if hasHyphen then tail else code
  insertAll (digits.length + 1) 72 128 0 basic digits

end Precis.Url.Punycode

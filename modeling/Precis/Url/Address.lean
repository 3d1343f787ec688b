import Precis.Url.Error
import Precis.Text.Hexadecimal

/-!
Contract: numeric hosts.

This module owns the two kinds of address that a host may be. An address of
four bytes may be written with fewer parts, the last of which then fills the
bytes that are left, and each part in base ten, eight (a zero in front) or
sixteen (`0x` in front). An address of eight 16-bit groups may leave out one
run of zeros, and end in four decimal bytes; it is written back in lower case
with the first of its longest runs of zeros left out.
-/

namespace Precis.Url

/-- The pieces of a text between separators. A text without a separator is one piece. -/
def splitAt (isSeparator : Char → Bool) : List Char → List (List Char)
  | [] => [[]]
  | character :: rest =>
      if isSeparator character then [] :: splitAt isSeparator rest
      else
        match splitAt isSeparator rest with
        | piece :: pieces => (character :: piece) :: pieces
        | [] => [[character]]

/-- The value of digits in a base, if all of them are digits of it. -/
def digitsValue? (base : Nat) (digits : List Char) : Option Nat :=
  digits.foldlM (fun value character =>
    match Text.Hexadecimal.value? character with
    | some digit => if digit < base then some (value * base + digit) else none
    | none => none) 0

def ipv4Number? : List Char → Option Nat
  | [] => none
  | '0' :: 'x' :: digits => digitsValue? 16 digits
  | '0' :: 'X' :: digits => digitsValue? 16 digits
  | '0' :: digit :: digits => digitsValue? 8 (digit :: digits)
  | digits => digitsValue? 10 digits

/-- The parts of a host between dots, without an empty one at the end. -/
def hostParts (host : List Char) : List (List Char) :=
  let parts := splitAt (· == '.') host
  if 1 < parts.length ∧ parts.getLast? = some [] then parts.dropLast else parts

/-- Whether a host has to be an address of four bytes, for its last part is a number. -/
def endsInNumber (host : List Char) : Bool :=
  match (hostParts host).getLast? with
  | some [] => false
  | some last => last.all Char.isDigit || (ipv4Number? last).isSome
  | none => false

/-- The address below a limit that parts denote: each but the last is one byte. -/
def ipv4OfNumbers? : (numbers : List Nat) → (limit : Nat) → Option Nat
  | [], _ => none
  | [last], limit => if last < limit then some last else none
  | number :: rest, limit =>
      if number < 256 then
        (ipv4OfNumbers? rest (limit / 256)).map fun low => number * (limit / 256) + low
      else none

def parseIpv4 (host : List Char) : Except ParseError Nat :=
  let parts := hostParts host
  if 4 < parts.length then .error .invalidIpv4
  else
    match (parts.mapM ipv4Number?).bind fun numbers => ipv4OfNumbers? numbers 0x100000000 with
    | some address => .ok address
    | none => .error .invalidIpv4

def ipv4Text (address : Nat) : String :=
  String.intercalate "."
    ([address / 16777216 % 256, address / 65536 % 256, address / 256 % 256, address % 256].map
      toString)

/-- A decimal byte: at most three digits, no zero in front of another digit. -/
def decimalByte? (digits : List Char) : Option Nat :=
  match digits with
  | [] => none
  | ['0'] => some 0
  | '0' :: _ => none
  | other => (digitsValue? 10 other).filter fun value => value < 256

def trailingBytes? (text : List Char) : Option (List Nat) :=
  match (splitAt (· == '.') text).mapM decimalByte? with
  | some [first, second, third, fourth] => some [first * 256 + second, third * 256 + fourth]
  | _ => none

/-- The groups of one side of an address; the last one may be four decimal bytes. -/
def groups? (mayEndInBytes : Bool) : List (List Char) → Option (List Nat)
  | [] => some []
  | [last] =>
      if last.contains '.' then if mayEndInBytes then trailingBytes? last else none
      else group? last
  | first :: rest =>
      match group? first, groups? mayEndInBytes rest with
      | some left, some right => some (left ++ right)
      | _, _ => none
where
  /-- One group of one to four hexadecimal digits. -/
  group? (digits : List Char) : Option (List Nat) :=
    if digits.isEmpty ∨ 4 < digits.length then none
    else (digitsValue? 16 digits).map fun value => [value]

/-- The text before and after the first pair of colons. -/
def splitDoubleColon : List Char → List Char × Option (List Char)
  | ':' :: ':' :: rest => ([], some rest)
  | character :: rest =>
      let split := splitDoubleColon rest
      (character :: split.1, split.2)
  | [] => ([], none)

/-- The groups of a text that may be empty. -/
def sideGroups? (mayEndInBytes : Bool) (text : List Char) : Option (List Nat) :=
  if text.isEmpty then some [] else groups? mayEndInBytes (splitAt (· == ':') text)

/-- The eight groups of an address, without the brackets around it. -/
def ipv6Groups? (text : List Char) : Option (List Nat) :=
  match splitDoubleColon text with
  | (whole, none) => (sideGroups? true whole).filter fun groups => groups.length = 8
  | (left, some right) =>
      match sideGroups? false left, sideGroups? true right with
      | some before, some after =>
          if before.length + after.length < 8 then
            some (before ++ List.replicate (8 - (before.length + after.length)) 0 ++ after)
          else none
      | _, _ => none

/-- The first of the longest runs of at least two zeros: where it starts and how long it is. -/
def longestZeroRun (groups : List Nat) : Option (Nat × Nat) :=
  let runs := (List.range groups.length).map fun start =>
    (start, ((groups.drop start).takeWhile (· == 0)).length)
  let longest := runs.foldl (fun best run => if best.2 < run.2 then run else best) (0, 1)
  if 1 < longest.2 then some longest else none

def groupsText (groups : List Nat) : List Char :=
  (groups.map (Nat.toDigits 16)).intersperse [':'] |>.flatten

def ipv6Text (groups : List Nat) : String :=
  let inner :=
    match longestZeroRun groups with
    | none => groupsText groups
    | some (start, length) =>
        groupsText (groups.take start) ++ [':', ':'] ++ groupsText (groups.drop (start + length))
  String.ofList ('[' :: (inner ++ [']']))

end Precis.Url

import Precis.Text.Utf8

/-!
Contract: percent encoding.

This module owns the sets of characters that each component of a URL may not
hold as they are, the encoding of those characters by their bytes, and the
decoding of bytes that were written that way. Every character past ASCII is
encoded in every component.
-/

namespace Precis.Url

/-- Characters that a component must encode. -/
abbrev EncodeSet := Char → Bool

/-- Controls and everything past ASCII. -/
def controlSet : EncodeSet := fun character =>
  decide (character.toNat < 0x20) || decide (0x7f ≤ character.toNat)

def fragmentSet : EncodeSet := fun character =>
  controlSet character || [' ', '"', '<', '>', '\x60'].contains character

def pathSet : EncodeSet := fun character =>
  fragmentSet character || ['#', '?', '\x7b', '\x7d'].contains character

def userinfoSet : EncodeSet := fun character =>
  pathSet character || ['/', ':', ';', '=', '@', '[', '\\', ']', '^', '|'].contains character

def querySet : EncodeSet := fun character =>
  controlSet character || [' ', '"', '#', '<', '>'].contains character

/-- What a query must encode under a scheme that has hosts and paths of its own rules. -/
def specialQuerySet : EncodeSet := fun character =>
  querySet character || character == '\''

def upperHexDigit (value : Nat) : Char :=
  if value < 10 then Char.ofNat ('0'.toNat + value) else Char.ofNat ('A'.toNat + (value - 10))

def encodeByte (byte : UInt8) : List Char :=
  ['%', upperHexDigit (byte.toNat / 16), upperHexDigit (byte.toNat % 16)]

def encodeChar (set : EncodeSet) (character : Char) : List Char :=
  if set character then (Text.Utf8.encodeChar character).flatMap encodeByte else [character]

def encode (set : EncodeSet) (characters : List Char) : List Char :=
  characters.flatMap (encodeChar set)

def hexByteValue? (byte : UInt8) : Option Nat :=
  let value := byte.toNat
  if 0x30 ≤ value ∧ value ≤ 0x39 then some (value - 0x30)
  else if 0x61 ≤ value ∧ value ≤ 0x66 then some (value - 0x61 + 10)
  else if 0x41 ≤ value ∧ value ≤ 0x46 then some (value - 0x41 + 10)
  else none

/-- Bytes with every percent sign that two digits follow read as one byte. -/
def decodeBytes : List UInt8 → List UInt8
  | 0x25 :: high :: low :: rest =>
      match hexByteValue? high, hexByteValue? low with
      | some first, some second => UInt8.ofNat (first * 16 + second) :: decodeBytes rest
      | _, _ => 0x25 :: decodeBytes (high :: low :: rest)
  | byte :: rest => byte :: decodeBytes rest
  | [] => []
termination_by bytes => bytes.length

end Precis.Url

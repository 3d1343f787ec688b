import Precis.Json.Document
import Precis.Text.Hexadecimal
import Precis.Text.Utf8

/-!
Contract: reading JSON text.

This module owns the strict grammar of JSON: no comments, no trailing commas,
no leading zeros, no raw controls inside a string, blanks only from the four
that the grammar knows, and nothing but blanks after the value. The reader
takes units of text: a unit is a character, or `none` where the bytes of the
text were malformed. A malformed unit is allowed inside a string literal only,
and makes it a literal that denotes no text. Every function gives what it read
and the units after it.
-/

namespace Precis.Json

/-- A row of units of text: characters, and `none` for malformed bytes. -/
abbrev Units := List (Option Char)

def isSpace (unit : Option Char) : Bool :=
  unit == some ' ' || unit == some '\t' || unit == some '\n' || unit == some '\r'

def skipSpace (units : Units) : Units :=
  units.dropWhile isSpace

def hexValue4? (first second third fourth : Char) : Option Nat :=
  match Text.Hexadecimal.value? first, Text.Hexadecimal.value? second,
      Text.Hexadecimal.value? third, Text.Hexadecimal.value? fourth with
  | some first, some second, some third, some fourth =>
      some (((first * 16 + second) * 16 + third) * 16 + fourth)
  | _, _, _, _ => none

/-- What stands for one character or half a pair in a string literal: a code
point or a surrogate, or `none` for malformed bytes. -/
abbrev Piece := Option Nat

/-- The code that a backslash and this letter stand for. -/
def escapedCode? : Char → Option Nat
  | '"' => some 0x22
  | '\\' => some 0x5c
  | '/' => some 0x2f
  | 'b' => some 0x08
  | 'f' => some 0x0c
  | 'n' => some 0x0a
  | 'r' => some 0x0d
  | 't' => some 0x09
  | _ => none

/-- The pieces of a string literal after its opening quote, and the units after
its closing quote. -/
def readPieces : Units → Option (List Piece × Units)
  | [] => none
  | some '"' :: rest => some ([], rest)
  | some '\\' :: some 'u' :: some first :: some second :: some third :: some fourth :: rest =>
      match hexValue4? first second third fourth, readPieces rest with
      | some code, some (pieces, after) => some (some code :: pieces, after)
      | _, _ => none
  | some '\\' :: some letter :: rest =>
      match escapedCode? letter, readPieces rest with
      | some code, some (pieces, after) => some (some code :: pieces, after)
      | _, _ => none
  | some '\\' :: _ => none
  | some character :: rest =>
      if character.toNat < 0x20 then none
      else (readPieces rest).map fun read => (some character.toNat :: read.1, read.2)
  | none :: rest => (readPieces rest).map fun read => (none :: read.1, read.2)

/-- The text that pieces denote: two surrogates of a pair make one character,
and nothing else may be a surrogate or malformed. -/
def assemble : List Piece → Option (List Char)
  | [] => some []
  | none :: _ => none
  | some code :: rest =>
      if 0xd800 ≤ code ∧ code < 0xdc00 then
        match rest with
        | some low :: after =>
            if 0xdc00 ≤ low ∧ low < 0xe000 then
              (assemble after).map fun text =>
                Char.ofNat (0x10000 + (code - 0xd800) * 0x400 + (low - 0xdc00)) :: text
            else none
        | _ => none
      else if 0xdc00 ≤ code ∧ code < 0xe000 then none
      else (assemble rest).map fun text => Char.ofNat code :: text

/-- A string literal after its opening quote. -/
def readString (units : Units) : Option (Option String × Units) :=
  (readPieces units).map fun read => ((assemble read.1).map String.ofList, read.2)

/-- The values of the decimal digits that the units start with, and the units after them. -/
def readDigits : Units → List Nat × Units
  | some character :: rest =>
      if '0' ≤ character ∧ character ≤ '9' then
        let read := readDigits rest
        ((character.toNat - '0'.toNat) :: read.1, read.2)
      else ([], some character :: rest)
  | units => ([], units)

/-- The fraction of a number: digits after a point, or none at all. -/
def readFraction : Units → Option (Option (List Nat) × Units)
  | some '.' :: rest =>
      let read := readDigits rest
      if read.1.isEmpty then none else some (some read.1, read.2)
  | units => some (none, units)

def readExponent : Units → Option (Option Int × Units)
  | some 'e' :: rest => readSigned rest
  | some 'E' :: rest => readSigned rest
  | units => some (none, units)
where
  /-- Digits after an optional sign. -/
  readSigned (units : Units) : Option (Option Int × Units) :=
    let negative := units.head? == some (some '-')
    let unsigned := if negative || units.head? == some (some '+') then units.drop 1 else units
    let read := readDigits unsigned
    if read.1.isEmpty then none
    else
      let magnitude : Int := Number.ofDigits read.1
      some (some (if negative then -magnitude else magnitude), read.2)

/-- The digits of the whole part: one digit, or several without a zero in front. -/
def readWhole (units : Units) : Option (List Nat × Units) :=
  let read := readDigits units
  match read.1 with
  | [] => none
  | 0 :: _ :: _ => none
  | _ => some read

def numberOfParts
    (negative : Bool)
    (whole : List Nat)
    (fraction : Option (List Nat))
    (exponent : Option Int) : Number :=
  match fraction, exponent with
  | none, none => Number.integerOfDigits negative whole
  | _, _ => Number.realOfParts negative whole (fraction.getD []) (exponent.getD 0)

def readNumber (units : Units) : Option (Number × Units) :=
  let negative := units.head? == some (some '-')
  match readWhole (if negative then units.drop 1 else units) with
  | none => none
  | some (whole, afterWhole) =>
      match readFraction afterWhole with
      | none => none
      | some (fraction, afterFraction) =>
          match readExponent afterFraction with
          | none => none
          | some (exponent, rest) => some (numberOfParts negative whole fraction exponent, rest)

mutual

/-- One value, with blanks before it. Each step into a value, an item or a
member takes one from the fuel. -/
def readDocument : (fuel : Nat) → Units → Option (Document × Units)
  | 0, _ => none
  | fuel + 1, units =>
      match skipSpace units with
      | some 'n' :: some 'u' :: some 'l' :: some 'l' :: rest => some (.null, rest)
      | some 't' :: some 'r' :: some 'u' :: some 'e' :: rest => some (.bool true, rest)
      | some 'f' :: some 'a' :: some 'l' :: some 's' :: some 'e' :: rest =>
          some (.bool false, rest)
      | some '"' :: rest => (readString rest).map fun read => (.string read.1, read.2)
      | some '[' :: rest =>
          match skipSpace rest with
          | some ']' :: after => some (.array [], after)
          | items => (readItems fuel items).map fun read => (.array read.1, read.2)
      | some '\x7b' :: rest =>
          match skipSpace rest with
          | some '\x7d' :: after => some (.object [], after)
          | members => (readMembers fuel members).map fun read => (.object read.1, read.2)
      | other => (readNumber other).map fun read => (.number read.1, read.2)

/-- The items of an array, at least one, up to its closing bracket. -/
def readItems : (fuel : Nat) → Units → Option (List Document × Units)
  | 0, _ => none
  | fuel + 1, units =>
      match readDocument fuel units with
      | none => none
      | some (item, afterItem) =>
          match skipSpace afterItem with
          | some ',' :: rest =>
              (readItems fuel rest).map fun read => (item :: read.1, read.2)
          | some ']' :: rest => some ([item], rest)
          | _ => none

def readMembers : (fuel : Nat) → Units → Option (List (Option String × Document) × Units)
  | 0, _ => none
  | fuel + 1, units =>
      match skipSpace units with
      | some '"' :: afterQuote =>
          match readString afterQuote with
          | none => none
          | some (name, afterName) =>
              match skipSpace afterName with
              | some ':' :: afterColon =>
                  match readDocument fuel afterColon with
                  | none => none
                  | some (item, afterItem) =>
                      match skipSpace afterItem with
                      | some ',' :: rest =>
                          (readMembers fuel rest).map fun read => ((name, item) :: read.1, read.2)
                      | some '\x7d' :: rest => some ([(name, item)], rest)
                      | _ => none
              | _ => none
      | _ => none

end

/-- The document that units of text spell. Every unit takes at most two steps. -/
def Document.ofUnits? (units : Units) : Option Document :=
  match readDocument (2 * units.length + 2) units with
  | some (document, rest) => if (skipSpace rest).isEmpty then some document else none
  | none => none

def Document.ofText? (text : String) : Option Document :=
  Document.ofUnits? (text.toList.map some)

def Document.ofBytes? (bytes : List UInt8) : Option Document :=
  Document.ofUnits? (Text.Utf8.units bytes)

end Precis.Json

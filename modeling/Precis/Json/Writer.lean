import Precis.Json.Document
import Precis.Text.Hexadecimal

/-!
Contract: writing JSON text.

This module owns the compact spelling of a generic value: no blanks, members in
their order, a short escape for a quote, a backslash and the five controls that
have one, a four-digit escape for the other controls, and every other character
as it is.
-/

namespace Precis.Json

/-- The characters that spell one character inside a string literal. -/
def spellChar (character : Char) : List Char :=
  match character with
  | '"' => ['\\', '"']
  | '\\' => ['\\', '\\']
  | '\x08' => ['\\', 'b']
  | '\x0c' => ['\\', 'f']
  | '\n' => ['\\', 'n']
  | '\r' => ['\\', 'r']
  | '\t' => ['\\', 't']
  | other =>
      if other.toNat < 0x20 then
        ['\\', 'u', '0', '0', Text.Hexadecimal.digit (other.toNat / 16),
          Text.Hexadecimal.digit (other.toNat % 16)]
      else [other]

def spellString (text : String) : List Char :=
  '"' :: (text.toList.flatMap spellChar ++ ['"'])

mutual

def Value.spell : Value → List Char
  | .null => ['n', 'u', 'l', 'l']
  | .bool true => ['t', 'r', 'u', 'e']
  | .bool false => ['f', 'a', 'l', 's', 'e']
  | .number value => value.text.toList
  | .string text => spellString text
  | .array items => '[' :: (spellItems items ++ [']'])
  | .object members => '\x7b' :: (spellMembers members ++ ['\x7d'])

def spellItems : List Value → List Char
  | [] => []
  | [item] => item.spell
  | item :: rest => item.spell ++ ',' :: spellItems rest

def spellMembers : List (String × Value) → List Char
  | [] => []
  | [(name, value)] => spellString name ++ ':' :: value.spell
  | (name, value) :: rest => spellString name ++ ':' :: (value.spell ++ ',' :: spellMembers rest)

end

def Value.text (value : Value) : String :=
  String.ofList value.spell

end Precis.Json

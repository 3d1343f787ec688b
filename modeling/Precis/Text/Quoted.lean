import Precis.Text.Printable

/-!
Contract: a text in quotes, as messages show it.

This module owns the quoted form of a text: double quotes around it, a
backslash before a quote or a backslash, short names for the four commonest
controls, the code point in hexadecimal for everything else that is not
printable, and all other characters as they are. A single quote is no special
character.
-/

namespace Precis.Text

def quotedChar (character : Char) : List Char :=
  match character with
  | '\x00' => ['\\', '0']
  | '\t' => ['\\', 't']
  | '\n' => ['\\', 'n']
  | '\r' => ['\\', 'r']
  | '"' => ['\\', '"']
  | '\\' => ['\\', '\\']
  | other =>
      if isPrintable other then [other]
      else '\\' :: 'u' :: '\x7b' :: (Nat.toDigits 16 other.toNat ++ ['\x7d'])

def quoted (text : String) : String :=
  String.ofList ('"' :: (text.toList.flatMap quotedChar ++ ['"']))

end Precis.Text

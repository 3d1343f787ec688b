import Precis.Text.Utf8
import Precis.Text.Blank

/-!
Contract: the text of a body that names its character encoding.

This module owns four encodings that a body may be written in, the labels that
name them, where a content type names one, and the reading of bytes in each. A
byte order mark at the start decides the encoding whatever the label says, and
is not part of the text. Malformed pieces read as the replacement character.

The labels of all other encodings count as unknown, and a body under an unknown
label is read as UTF-8. The parameters of a content type are told apart at the
semicolons alone; the grammar of media types is not checked.
-/

namespace Precis.Text

inductive Charset where
  | utf8
  | windows1252
  | utf16LittleEndian
  | utf16BigEndian
deriving DecidableEq, Repr

namespace Charset

def labels : Charset → List String
  | .utf8 => ["utf-8", "utf8", "unicode-1-1-utf-8", "unicode11utf8", "unicode20utf8",
      "x-unicode20utf8"]
  | .windows1252 => ["windows-1252", "cp1252", "x-cp1252", "iso-8859-1", "iso8859-1",
      "iso88591", "iso_8859-1", "iso_8859-1:1987", "iso-ir-100", "latin1", "l1", "cp819",
      "ibm819", "csisolatin1", "ascii", "us-ascii", "ansi_x3.4-1968"]
  | .utf16LittleEndian => ["utf-16", "utf-16le", "unicode", "unicodefeff", "csunicode",
      "iso-10646-ucs-2", "ucs-2"]
  | .utf16BigEndian => ["utf-16be", "unicodefffe"]

/-- The encoding that a label names, up to letter case and blanks around it. -/
def ofLabel? (label : String) : Option Charset :=
  let name := (trim label).map Char.toLower
  [.utf8, .windows1252, .utf16LittleEndian, .utf16BigEndian].find? fun charset =>
    charset.labels.contains name

def unquote : List Char → List Char
  | '"' :: rest => rest.takeWhile (· != '"')
  | other => other

/-- The value of the parameter `charset`, among the parameters of a content type. -/
def parameter? : List String → Option String
  | [] => none
  | entry :: rest =>
      let characters := (trim entry).toList
      let name := characters.takeWhile (· != '=')
      let value := characters.dropWhile (· != '=')
      if (String.ofList name).map Char.toLower = "charset" ∧ value ≠ [] then
        some (String.ofList (unquote (value.drop 1)))
      else parameter? rest

/-- The encoding that a content type names; UTF-8 where it names none that is known. -/
def ofContentType (contentType : Option String) : Charset :=
  match contentType.map fun text => text.splitOn ";" with
  | some (essence :: parameters) =>
      if essence.contains '/' then
        ((parameter? parameters).bind ofLabel?).getD .utf8
      else .utf8
  | _ => .utf8

/-- The characters of the bytes 0x80 to 0x9f in windows-1252. -/
def windowsSpecials : List Nat :=
  [0x20ac, 0x81, 0x201a, 0x192, 0x201e, 0x2026, 0x2020, 0x2021, 0x2c6, 0x2030, 0x160,
    0x2039, 0x152, 0x8d, 0x17d, 0x8f, 0x90, 0x2018, 0x2019, 0x201c, 0x201d, 0x2022,
    0x2013, 0x2014, 0x2dc, 0x2122, 0x161, 0x203a, 0x153, 0x9d, 0x17e, 0x178]

def windowsChar (byte : UInt8) : Char :=
  if 0x80 ≤ byte.toNat ∧ byte.toNat < 0xa0 then
    Char.ofNat (windowsSpecials.getD (byte.toNat - 0x80) 0)
  else Char.ofNat byte.toNat

/-- The 16-bit units of a row of bytes; `none` for a byte left over. -/
def units16 (bigEndian : Bool) : List UInt8 → List (Option Nat)
  | [] => []
  | [_] => [none]
  | first :: second :: rest =>
      some (if bigEndian then first.toNat * 256 + second.toNat
        else second.toNat * 256 + first.toNat) :: units16 bigEndian rest

/-- The characters of 16-bit units: a high and a low surrogate in a row make
one character, any other surrogate is malformed. -/
def decode16 : List (Option Nat) → List Char
  | [] => []
  | none :: rest => Utf8.replacement :: decode16 rest
  | some unit :: rest =>
      if 0xd800 ≤ unit ∧ unit < 0xdc00 then
        match rest with
        | some low :: after =>
            if 0xdc00 ≤ low ∧ low < 0xe000 then
              Char.ofNat (0x10000 + (unit - 0xd800) * 0x400 + (low - 0xdc00)) :: decode16 after
            else Utf8.replacement :: decode16 (some low :: after)
        | other => Utf8.replacement :: decode16 other
      else if 0xdc00 ≤ unit ∧ unit < 0xe000 then Utf8.replacement :: decode16 rest
      else Char.ofNat unit :: decode16 rest
termination_by units => units.length

/-- The characters of bytes that hold no byte order mark. -/
def decodeBody : Charset → List UInt8 → List Char
  | .utf8, bytes => Utf8.decodeLenient bytes
  | .windows1252, bytes => bytes.map windowsChar
  | .utf16LittleEndian, bytes => decode16 (units16 false bytes)
  | .utf16BigEndian, bytes => decode16 (units16 true bytes)

def decode (charset : Charset) (bytes : List UInt8) : String :=
  String.ofList <|
    match bytes with
    | 0xef :: 0xbb :: 0xbf :: rest => decodeBody .utf8 rest
    | 0xff :: 0xfe :: rest => decodeBody .utf16LittleEndian rest
    | 0xfe :: 0xff :: rest => decodeBody .utf16BigEndian rest
    | other => decodeBody charset other

end Charset

end Precis.Text

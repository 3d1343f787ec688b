import Precis.Json.Reader

/-!
Contract: the grammar of JSON text.

Owns which texts spell a document: the forms of a number and of a string
literal, the blanks that may stand between tokens, and the nesting of arrays
and objects. A string literal spells code units; most of them are characters,
and the two halves of a surrogate pair are one character together. A literal
whose units make up no text spells a string all the same, one without a text.

Does not own how a text is read.
-/

namespace Precis.Json

/-- Nothing but the four blanks that may stand between tokens. -/
def Blanks (characters : List Char) : Prop :=
  ∀ character ∈ characters,
    character = ' ' ∨ character = '\t' ∨ character = '\n' ∨ character = '\r'

/-! ### Numbers -/

/-- One or more decimal digits. -/
structure Digits where
  first : Fin 10
  others : List (Fin 10)
deriving DecidableEq, Repr

namespace Digits

def values (digits : Digits) : List Nat :=
  (digits.first :: digits.others).map Fin.val

def characters (digits : Digits) : List Char :=
  digits.values.map Nat.digitChar

end Digits

/-- The exponent of a number; it is negative, positive, or has no sign. -/
structure Exponent where
  letter : Char
  letter_eq : letter = 'e' ∨ letter = 'E'
  sign : Option Bool
  digits : Digits

namespace Exponent

def value (exponent : Exponent) : Int :=
  let magnitude : Int := Number.ofDigits exponent.digits.values
  if exponent.sign = some true then -magnitude else magnitude

def signCharacters (exponent : Exponent) : List Char :=
  match exponent.sign with
  | some true => ['-']
  | some false => ['+']
  | none => []

def characters (exponent : Exponent) : List Char :=
  exponent.letter :: (exponent.signCharacters ++ exponent.digits.characters)

end Exponent

/-- A number as it is written. A zero in front of the whole part stands alone there. -/
structure NumberLiteral where
  negative : Bool
  whole : Digits
  zero_alone : whole.first = 0 → whole.others = []
  fraction : Option Digits
  exponent : Option Exponent

namespace NumberLiteral

/-- The number that a literal denotes. -/
def number (literal : NumberLiteral) : Number :=
  numberOfParts literal.negative literal.whole.values (literal.fraction.map Digits.values)
    (literal.exponent.map Exponent.value)

def fractionCharacters (literal : NumberLiteral) : List Char :=
  match literal.fraction with
  | some digits => '.' :: digits.characters
  | none => []

def exponentCharacters (literal : NumberLiteral) : List Char :=
  match literal.exponent with
  | some exponent => exponent.characters
  | none => []

def characters (literal : NumberLiteral) : List Char :=
  (if literal.negative then ['-'] else []) ++
    (literal.whole.characters ++ (literal.fractionCharacters ++ literal.exponentCharacters))

end NumberLiteral

/-! ### Strings -/

/-- The letters that may follow a backslash, each with the character it stands for. -/
def shortEscapes : List (Char × Char) :=
  [('"', '"'), ('\\', '\\'), ('/', '/'), ('b', '\x08'), ('f', '\x0c'), ('n', '\n'),
    ('r', '\r'), ('t', '\t')]

/-- The spellings of one code unit: a character as it is, a short escape, or
four hexadecimal digits. -/
inductive SpellsUnit : Nat → List Char → Prop
  | plain
      {character : Char}
      (noControl : 0x20 ≤ character.toNat)
      (noQuote : character ≠ '"')
      (noBackslash : character ≠ '\\') :
      SpellsUnit character.toNat [character]
  | short
      {letter character : Char}
      (listed : (letter, character) ∈ shortEscapes) :
      SpellsUnit character.toNat ['\\', letter]
  | code
      {first second third fourth : Char}
      {high upper lower low : Nat}
      (first_value : Text.Hexadecimal.value? first = some high)
      (second_value : Text.Hexadecimal.value? second = some upper)
      (third_value : Text.Hexadecimal.value? third = some lower)
      (fourth_value : Text.Hexadecimal.value? fourth = some low) :
      SpellsUnit (((high * 16 + upper) * 16 + lower) * 16 + low)
        ['\\', 'u', first, second, third, fourth]

inductive SpellsUnits : List Nat → List Char → Prop
  | nil : SpellsUnits [] []
  | cons
      {unit : Nat}
      {units : List Nat}
      {characters rest : List Char}
      (first : SpellsUnit unit characters)
      (others : SpellsUnits units rest) :
      SpellsUnits (unit :: units) (characters ++ rest)

/-- The text that code units make up. A character is its code, or a high and a
low surrogate. -/
inductive Denotes : List Nat → List Char → Prop
  | nil : Denotes [] []
  | character
      {units : List Nat}
      {text : List Char}
      (character : Char)
      (others : Denotes units text) :
      Denotes (character.toNat :: units) (character :: text)
  | pair
      {high low : Nat}
      {character : Char}
      {units : List Nat}
      {text : List Char}
      (high_range : 0xd800 ≤ high ∧ high < 0xdc00)
      (low_range : 0xdc00 ≤ low ∧ low < 0xe000)
      (code : character.toNat = 0x10000 + (high - 0xd800) * 0x400 + (low - 0xdc00))
      (others : Denotes units text) :
      Denotes (high :: low :: units) (character :: text)

/-- The literals of a string that is a text, and of one that is none. -/
inductive SpellsString : Option String → List Char → Prop
  | text
      {units : List Nat}
      {text : String}
      {characters : List Char}
      (spells : SpellsUnits units characters)
      (denotes : Denotes units text.toList) :
      SpellsString (some text) ('"' :: (characters ++ ['"']))
  | broken
      {units : List Nat}
      {characters : List Char}
      (spells : SpellsUnits units characters)
      (textless : ∀ text, ¬ Denotes units text) :
      SpellsString none ('"' :: (characters ++ ['"']))

/-! ### Documents -/

mutual

/-- The spellings of a document, from its first token to its last. -/
inductive Spells : Document → List Char → Prop
  | null : Spells .null ['n', 'u', 'l', 'l']
  | boolTrue : Spells (.bool true) ['t', 'r', 'u', 'e']
  | boolFalse : Spells (.bool false) ['f', 'a', 'l', 's', 'e']
  | number (literal : NumberLiteral) : Spells (.number literal.number) literal.characters
  | string
      {text : Option String}
      {characters : List Char}
      (spells : SpellsString text characters) :
      Spells (.string text) characters
  | emptyArray {blanks : List Char} (blank : Blanks blanks) :
      Spells (.array []) ('[' :: (blanks ++ [']']))
  | array
      {items : List Document}
      {characters : List Char}
      (spells : SpellsItems items characters) :
      Spells (.array items) ('[' :: (characters ++ [']']))
  | emptyObject {blanks : List Char} (blank : Blanks blanks) :
      Spells (.object []) ('\x7b' :: (blanks ++ ['\x7d']))
  | object
      {members : List (Option String × Document)}
      {characters : List Char}
      (spells : SpellsMembers members characters) :
      Spells (.object members) ('\x7b' :: (characters ++ ['\x7d']))

/-- A document with blanks before and after it. -/
inductive SpellsPadded : Document → List Char → Prop
  | mk
      {document : Document}
      {before characters after : List Char}
      (blankBefore : Blanks before)
      (spells : Spells document characters)
      (blankAfter : Blanks after) :
      SpellsPadded document (before ++ (characters ++ after))

/-- Items between commas, at least one. -/
inductive SpellsItems : List Document → List Char → Prop
  | last
      {item : Document}
      {characters : List Char}
      (spells : SpellsPadded item characters) :
      SpellsItems [item] characters
  | cons
      {item : Document}
      {items : List Document}
      {characters rest : List Char}
      (spells : SpellsPadded item characters)
      (others : SpellsItems items rest) :
      SpellsItems (item :: items) (characters ++ ',' :: rest)

/-- A name, a colon and a document. -/
inductive SpellsMember : Option String × Document → List Char → Prop
  | mk
      {name : Option String}
      {document : Document}
      {before nameCharacters after characters : List Char}
      (blankBefore : Blanks before)
      (spellsName : SpellsString name nameCharacters)
      (blankAfter : Blanks after)
      (spells : SpellsPadded document characters) :
      SpellsMember (name, document) (before ++ (nameCharacters ++ (after ++ ':' :: characters)))

/-- Members between commas, at least one. -/
inductive SpellsMembers : List (Option String × Document) → List Char → Prop
  | last
      {member : Option String × Document}
      {characters : List Char}
      (spells : SpellsMember member characters) :
      SpellsMembers [member] characters
  | cons
      {member : Option String × Document}
      {members : List (Option String × Document)}
      {characters rest : List Char}
      (spells : SpellsMember member characters)
      (others : SpellsMembers members rest) :
      SpellsMembers (member :: members) (characters ++ ',' :: rest)

end

end Precis.Json

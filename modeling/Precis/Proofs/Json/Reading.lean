import Mathlib.Data.List.DropRight
import Precis.Proofs.Json.Spelling
import Precis.Proofs.Text.Hexadecimal
import Precis.Proofs.Text.Utf8

/-!
Contract: the reader accepts every spelling.

Owns one lemma for each function of the reader, which says what it makes of the
spellings that it is for, whatever units come after them. `ofText?_of_spells`
puts them together: a text that spells a document, with blanks around it, reads
as that document.
-/

namespace Precis.Json

/-- The units of a row of characters. -/
def unitsOf (characters : List Char) : Units :=
  characters.map some

@[simp] theorem unitsOf_nil : unitsOf [] = [] := rfl

@[simp] theorem unitsOf_cons (character : Char) (characters : List Char) :
    unitsOf (character :: characters) = some character :: unitsOf characters := rfl

@[simp] theorem unitsOf_append (left right : List Char) :
    unitsOf (left ++ right) = unitsOf left ++ unitsOf right :=
  List.map_append

@[simp] theorem length_unitsOf (characters : List Char) :
    (unitsOf characters).length = characters.length :=
  List.length_map some

/-! ### Blanks -/

/-- What may come after a value: the end, a blank, or the token that ends an item. -/
def Ends (units : Units) : Prop :=
  ∀ character, units.head? = some (some character) →
    character = ' ' ∨ character = '\t' ∨ character = '\n' ∨ character = '\r' ∨
      character = ',' ∨ character = ']' ∨ character = '\x7d'

theorem ends_nil : Ends [] := by
  intro character head
  cases head

theorem Blanks.ends_append
    {blanks : List Char}
    {rest : Units}
    (blank : Blanks blanks)
    (ends : Ends rest) :
    Ends (unitsOf blanks ++ rest) := by
  cases blanks with
  | nil => exact ends
  | cons first others =>
      intro character head
      obtain rfl : first = character := Option.some.inj (Option.some.inj head)
      have isBlank := blank first List.mem_cons_self
      tauto

/-- A token begins with something that is no blank. -/
def BeginsToken (units : Units) : Prop :=
  ∀ unit, units.head? = some unit → isSpace unit = false

theorem skipSpace_of_beginsToken {units : Units} (begins : BeginsToken units) :
    skipSpace units = units := by
  cases units with
  | nil => rfl
  | cons first rest => exact List.dropWhile_cons_of_neg (by simp [begins first rfl])

theorem Blanks.skipSpace_append
    {blanks : List Char}
    (blank : Blanks blanks)
    (rest : Units) :
    skipSpace (unitsOf blanks ++ rest) = skipSpace rest := by
  induction blanks with
  | nil => rfl
  | cons first others inductionHypothesis =>
      have firstBlank : isSpace (some first) = true := by
        rcases blank first List.mem_cons_self with rfl | rfl | rfl | rfl <;> decide
      have othersBlank : Blanks others :=
        fun character member => blank character (List.mem_cons_of_mem _ member)
      have skips : skipSpace (some first :: (unitsOf others ++ rest)) =
          skipSpace (unitsOf others ++ rest) := List.dropWhile_cons_of_pos firstBlank
      rw [unitsOf_cons, List.cons_append, skips, inductionHypothesis othersBlank]

/-! ### Numbers -/

theorem digitChar_bounds (digit : Fin 10) :
    '0' ≤ Nat.digitChar digit ∧ Nat.digitChar digit ≤ '9' ∧
      (Nat.digitChar digit).toNat - '0'.toNat = digit := by
  revert digit
  decide

theorem digitChar_ne
    (digit : Fin 10)
    {sign : Char}
    (isSign : sign = '-' ∨ sign = '+') :
    Nat.digitChar digit ≠ sign := by
  intro same
  have least := (digitChar_bounds digit).1
  rw [same] at least
  rcases isSign with rfl | rfl <;> exact absurd least (by decide)

/-- Reading digits stops where no digit stands. -/
theorem readDigits_append
    (digits : List (Fin 10))
    {rest : Units}
    (stops : readDigits rest = ([], rest)) :
    readDigits (unitsOf ((digits.map Fin.val).map Nat.digitChar) ++ rest) =
      (digits.map Fin.val, rest) := by
  induction digits with
  | nil => exact stops
  | cons digit others inductionHypothesis =>
      obtain ⟨least, greatest, value⟩ := digitChar_bounds digit
      simp only [List.map_cons, unitsOf_cons, List.cons_append, readDigits]
      rw [if_pos ⟨least, greatest⟩, inductionHypothesis, value]

theorem readDigits_of_head
    {units : Units}
    (noDigit : ∀ character, units.head? = some (some character) →
      ¬ ('0' ≤ character ∧ character ≤ '9')) :
    readDigits units = ([], units) := by
  match units with
  | [] => rfl
  | none :: rest => rfl
  | some character :: rest =>
      rw [readDigits, if_neg (noDigit character rfl)]

theorem Digits.read
    (digits : Digits)
    {rest : Units}
    (stops : readDigits rest = ([], rest)) :
    readDigits (unitsOf digits.characters ++ rest) = (digits.values, rest) :=
  readDigits_append (digits.first :: digits.others) stops

theorem Digits.values_isEmpty (digits : Digits) : digits.values.isEmpty = false := rfl

theorem Ends.readDigits_eq {rest : Units} (ends : Ends rest) : readDigits rest = ([], rest) := by
  apply readDigits_of_head
  intro character head
  rcases ends character head with rfl | rfl | rfl | rfl | rfl | rfl | rfl <;> decide

theorem Ends.head_ne
    {rest : Units}
    (ends : Ends rest)
    {character : Char}
    (inside : character = '.' ∨ character = 'e' ∨ character = 'E') :
    rest.head? ≠ some (some character) := by
  intro head
  have allowed := ends character head
  rcases inside with rfl | rfl | rfl <;> revert allowed <;> decide

namespace Exponent

variable (exponent : Exponent)

theorem characters_eq :
    exponent.characters =
      exponent.letter :: (exponent.signCharacters ++ exponent.digits.characters) := rfl

omit exponent in
theorem readSigned_of_unsigned
    {units : Units}
    (notMinus : units.head? ≠ some (some '-'))
    (notPlus : units.head? ≠ some (some '+')) :
    readExponent.readSigned units =
      if (readDigits units).1.isEmpty then none
      else some (some (Number.ofDigits (readDigits units).1 : Int), (readDigits units).2) := by
  simp [readExponent.readSigned, notMinus, notPlus]

theorem readSigned_eq {rest : Units} (ends : Ends rest) :
    readExponent.readSigned
        (unitsOf (exponent.signCharacters ++ exponent.digits.characters) ++ rest) =
      some (some exponent.value, rest) := by
  have read := exponent.digits.read ends.readDigits_eq
  obtain ⟨letter, letterEq, sign, digits⟩ := exponent
  match sign with
  | some true =>
      simp [readExponent.readSigned, signCharacters, value, read, Digits.values_isEmpty]
  | some false =>
      simp [readExponent.readSigned, signCharacters, value, read, Digits.values_isEmpty]
  | none =>
      -- Without a sign the first unit is a digit.
      have notMinus := digitChar_ne digits.first (.inl rfl)
      have notPlus := digitChar_ne digits.first (.inr rfl)
      simp only [signCharacters, List.nil_append]
      rw [readSigned_of_unsigned (by simp [Digits.characters, Digits.values, notMinus])
        (by simp [Digits.characters, Digits.values, notPlus]), read]
      simp [value, Digits.values_isEmpty]

theorem read {rest : Units} (ends : Ends rest) :
    readExponent (unitsOf exponent.characters ++ rest) = some (some exponent.value, rest) := by
  have signed := exponent.readSigned_eq ends
  rw [characters_eq, unitsOf_cons, List.cons_append]
  rcases exponent.letter_eq with lower | upper
  · rw [lower, readExponent, signed]
  · rw [upper, readExponent, signed]

end Exponent

namespace NumberLiteral

variable (literal : NumberLiteral) {rest : Units} (ends : Ends rest)

include ends

theorem head_exponentCharacters (character : Char)
    (head : (unitsOf literal.exponentCharacters ++ rest).head? = some (some character)) :
    character ≠ '.' ∧ ¬ ('0' ≤ character ∧ character ≤ '9') := by
  unfold exponentCharacters at head
  split at head
  case h_1 exponent _ =>
    obtain rfl : exponent.letter = character := Option.some.inj (Option.some.inj head)
    rcases exponent.letter_eq with lower | upper
    · rw [lower]
      decide
    · rw [upper]
      decide
  case h_2 => rcases ends character head with rfl | rfl | rfl | rfl | rfl | rfl | rfl <;> decide

theorem readDigits_exponentCharacters :
    readDigits (unitsOf literal.exponentCharacters ++ rest) =
      ([], unitsOf literal.exponentCharacters ++ rest) :=
  readDigits_of_head fun character head => (literal.head_exponentCharacters ends character head).2

theorem readExponent_eq :
    readExponent (unitsOf literal.exponentCharacters ++ rest) =
      some (literal.exponent.map Exponent.value, rest) := by
  unfold exponentCharacters
  cases literal.exponent with
  | some exponent => exact exponent.read ends
  | none =>
      match rest, ends with
      | [], _ => rfl
      | none :: _, _ => rfl
      | some character :: others, ends =>
          have notLower : character ≠ 'e' :=
            fun same => ends.head_ne (.inr (.inl same)) rfl
          have notUpper : character ≠ 'E' :=
            fun same => ends.head_ne (.inr (.inr same)) rfl
          simp [readExponent, notLower, notUpper]

theorem readFraction_eq :
    readFraction
        (unitsOf literal.fractionCharacters ++ (unitsOf literal.exponentCharacters ++ rest)) =
      some (literal.fraction.map Digits.values,
        unitsOf literal.exponentCharacters ++ rest) := by
  have stops := literal.readDigits_exponentCharacters ends
  unfold fractionCharacters
  cases literal.fraction with
  | some digits =>
      simp [readFraction, digits.read stops, Digits.values_isEmpty]
  | none =>
      have notPoint := fun character head =>
        (literal.head_exponentCharacters ends character head).1
      simp only [unitsOf_nil, List.nil_append, Option.map_none]
      generalize unitsOf literal.exponentCharacters ++ rest = units at notPoint
      match units, notPoint with
      | [], _ => rfl
      | none :: _, _ => rfl
      | some character :: others, notPoint =>
          have other : character ≠ '.' := notPoint character rfl
          simp [readFraction, other]

theorem readDigits_fractionCharacters :
    readDigits
        (unitsOf literal.fractionCharacters ++ (unitsOf literal.exponentCharacters ++ rest)) =
      ([], unitsOf literal.fractionCharacters ++
        (unitsOf literal.exponentCharacters ++ rest)) := by
  unfold fractionCharacters
  cases literal.fraction with
  | some digits => rfl
  | none => exact literal.readDigits_exponentCharacters ends

omit ends in
theorem readWhole_eq {rest : Units} (stops : readDigits rest = ([], rest)) :
    readWhole (unitsOf literal.whole.characters ++ rest) =
      some (literal.whole.values, rest) := by
  unfold readWhole
  simp only
  rw [literal.whole.read stops]
  have values : literal.whole.values =
      literal.whole.first.val :: literal.whole.others.map Fin.val := rfl
  by_cases zero : literal.whole.first = 0
  · rw [values, zero, literal.zero_alone zero]
    rfl
  · have notZero : literal.whole.first.val ≠ 0 := fun same => zero (Fin.ext same)
    rw [values]
    split
    case h_1 => contradiction
    case h_2 same => exact absurd (List.cons.inj same).1 notZero
    case h_3 => rfl

theorem read :
    readNumber (unitsOf literal.characters ++ rest) = some (literal.number, rest) := by
  have whole := literal.readWhole_eq (literal.readDigits_fractionCharacters ends)
  have fraction := literal.readFraction_eq ends
  have exponent := literal.readExponent_eq ends
  have firstNotMinus := digitChar_ne literal.whole.first (.inl rfl)
  have wholeUnits : unitsOf literal.whole.characters =
      some (Nat.digitChar literal.whole.first) ::
        unitsOf ((literal.whole.others.map Fin.val).map Nat.digitChar) := rfl
  unfold characters number readNumber
  cases literal.negative with
  | true =>
      simp only [if_true, unitsOf_append, unitsOf_cons, List.append_assoc,
        List.cons_append, List.nil_append, List.head?_cons, beq_self_eq_true, List.drop_one,
        List.tail_cons, whole, fraction, exponent]
  | false =>
      have noSign : ((unitsOf literal.whole.characters ++ (unitsOf literal.fractionCharacters ++
          (unitsOf literal.exponentCharacters ++ rest))).head? == some (some '-')) = false := by
        rw [wholeUnits]
        simp [firstNotMinus]
      simp only [Bool.false_eq_true, if_false, List.nil_append, unitsOf_append,
        List.append_assoc, noSign, whole, fraction, exponent]

end NumberLiteral

/-! ### Strings -/

theorem assemble_cons (code : Nat) (rest : List Piece) :
    assemble (some code :: rest) =
      if 0xd800 ≤ code ∧ code < 0xdc00 then
        match rest with
        | some low :: after =>
            if 0xdc00 ≤ low ∧ low < 0xe000 then
              (assemble after).map fun text =>
                Char.ofNat (0x10000 + (code - 0xd800) * 0x400 + (low - 0xdc00)) :: text
            else none
        | _ => none
      else if 0xdc00 ≤ code ∧ code < 0xe000 then none
      else (assemble rest).map fun text => Char.ofNat code :: text :=
  assemble.eq_def (some code :: rest)

theorem Denotes.assemble_eq {units : List Nat} {text : List Char} (denotes : Denotes units text) :
    assemble (units.map some) = some text := by
  induction denotes with
  | nil => rfl
  | character character others inductionHypothesis =>
      have range := Text.Utf8.toNat_range character
      rw [List.map_cons, assemble_cons, if_neg (by omega), if_neg (by omega),
        inductionHypothesis, Option.map_some, Char.ofNat_toNat]
  | @pair high low character units text highRange lowRange code others inductionHypothesis =>
      rw [List.map_cons, List.map_cons, assemble_cons, if_pos highRange]
      simp only
      rw [if_pos lowRange, inductionHypothesis, Option.map_some, ← code, Char.ofNat_toNat]

/-- What units are put together to is the text that they denote. -/
theorem denotes_of_assemble
    (units : List Nat)
    {text : List Char}
    (small : ∀ unit ∈ units, unit < 0x110000)
    (assembled : assemble (units.map some) = some text) :
    Denotes units text := by
  match units with
  | [] =>
      obtain rfl : [] = text := Option.some.inj assembled
      exact .nil
  | unit :: others =>
      have unitSmall := small unit List.mem_cons_self
      have othersSmall : ∀ other ∈ others, other < 0x110000 :=
        fun other member => small other (List.mem_cons_of_mem _ member)
      rw [List.map_cons, assemble_cons] at assembled
      split at assembled
      case isTrue highRange =>
        match others with
        | [] => cases assembled
        | low :: after =>
            simp only [List.map_cons, Option.ite_none_right_eq_some, Option.map_eq_some_iff]
              at assembled
            obtain ⟨lowRange, rest, restEq, rfl⟩ := assembled
            refine .pair highRange lowRange (Text.Utf8.toNat_ofNat_of_range (by omega)) ?_
            exact denotes_of_assemble after
              (fun other member => othersSmall other (List.mem_cons_of_mem _ member)) restEq
      case isFalse notHigh =>
        simp only [Option.ite_none_left_eq_some, Option.map_eq_some_iff] at assembled
        obtain ⟨notLow, rest, restEq, rfl⟩ := assembled
        have code : (Char.ofNat unit).toNat = unit := Text.Utf8.toNat_ofNat_of_range (by omega)
        have denotes := Denotes.character (Char.ofNat unit)
          (denotes_of_assemble others othersSmall restEq)
        rwa [code] at denotes

theorem SpellsUnit.unit_lt {unit : Nat} {characters : List Char}
    (spells : SpellsUnit unit characters) : unit < 0x110000 := by
  have small : ∀ character : Char, character.toNat < 0x110000 := by
    intro character
    have range := Text.Utf8.toNat_range character
    omega
  cases spells with
  | plain noControl noQuote noBackslash => exact small _
  | short listed => exact small _
  | code firstValue secondValue thirdValue fourthValue =>
      have := Text.Hexadecimal.value?_lt firstValue
      have := Text.Hexadecimal.value?_lt secondValue
      have := Text.Hexadecimal.value?_lt thirdValue
      have := Text.Hexadecimal.value?_lt fourthValue
      omega

theorem SpellsUnits.unit_lt {units : List Nat} {characters : List Char}
    (spells : SpellsUnits units characters) : ∀ unit ∈ units, unit < 0x110000 := by
  induction spells with
  | nil => simp
  | cons first others inductionHypothesis =>
      intro unit member
      rcases List.mem_cons.mp member with rfl | later
      · exact first.unit_lt
      · exact inductionHypothesis unit later

theorem escapedCode_of_listed {letter character : Char}
    (listed : (letter, character) ∈ shortEscapes) :
    escapedCode? letter = some character.toNat ∧ letter ≠ 'u' := by
  revert listed
  simp only [shortEscapes, List.mem_cons, Prod.mk.injEq, List.not_mem_nil, or_false]
  rintro (⟨rfl, rfl⟩ | ⟨rfl, rfl⟩ | ⟨rfl, rfl⟩ | ⟨rfl, rfl⟩ | ⟨rfl, rfl⟩ | ⟨rfl, rfl⟩ |
    ⟨rfl, rfl⟩ | ⟨rfl, rfl⟩) <;> decide

theorem SpellsUnit.readPieces_eq
    {unit : Nat}
    {characters : List Char}
    {pieces : List Piece}
    {units after : Units}
    (spells : SpellsUnit unit characters)
    (read : readPieces units = some (pieces, after)) :
    readPieces (unitsOf characters ++ units) = some (some unit :: pieces, after) := by
  cases spells with
  | plain noControl noQuote noBackslash =>
      simp [readPieces, noBackslash, Nat.not_lt.mpr noControl, read]
  | short listed =>
      obtain ⟨code, notCode⟩ := escapedCode_of_listed listed
      simp [readPieces, notCode, code, read]
  | code firstValue secondValue thirdValue fourthValue =>
      simp [readPieces, hexValue4?, firstValue, secondValue, thirdValue, fourthValue, read]

theorem SpellsUnits.readPieces_eq
    {units : List Nat}
    {characters : List Char}
    (spells : SpellsUnits units characters)
    (rest : Units) :
    readPieces (unitsOf characters ++ some '"' :: rest) = some (units.map some, rest) := by
  induction spells with
  | nil => simp [readPieces]
  | cons first others inductionHypothesis =>
      rw [unitsOf_append, List.append_assoc]
      exact first.readPieces_eq inductionHypothesis

/-- The literal of a string reads as its text, if it has one. -/
theorem SpellsString.read
    {text : Option String}
    {characters : List Char}
    (spells : SpellsString text characters)
    (rest : Units) :
    ∃ inner, unitsOf characters ++ rest = some '"' :: inner ∧
      readString inner = some (text, rest) := by
  cases spells with
  | @text units text characters spells denotes =>
      refine ⟨unitsOf characters ++ some '"' :: rest, by simp, ?_⟩
      rw [readString, spells.readPieces_eq rest, Option.map_some, denotes.assemble_eq,
        Option.map_some, String.ofList_toList]
  | @broken units characters spells textless =>
      refine ⟨unitsOf characters ++ some '"' :: rest, by simp, ?_⟩
      have unassembled : assemble (units.map some) = none := by
        cases assembled : assemble (units.map some) with
        | none => rfl
        | some text =>
            exact absurd (denotes_of_assemble units spells.unit_lt assembled) (textless text)
      rw [readString, spells.readPieces_eq rest, Option.map_some, unassembled, Option.map_none]

/-! ### Documents -/

theorem skipSpace_skipSpace (units : Units) : skipSpace (skipSpace units) = skipSpace units :=
  List.dropWhile_idempotent isSpace units

theorem readDocument_skipSpace (fuel : Nat) (units : Units) :
    readDocument fuel (skipSpace units) = readDocument fuel units := by
  cases fuel with
  | zero => rw [readDocument, readDocument]
  | succ fuel => rw [readDocument, skipSpace_skipSpace, ← readDocument]

theorem readItems_skipSpace (fuel : Nat) (units : Units) :
    readItems fuel (skipSpace units) = readItems fuel units := by
  cases fuel with
  | zero => rw [readItems, readItems]
  | succ fuel => rw [readItems, readDocument_skipSpace, readItems]

theorem readMembers_skipSpace (fuel : Nat) (units : Units) :
    readMembers fuel (skipSpace units) = readMembers fuel units := by
  cases fuel with
  | zero => rw [readMembers, readMembers]
  | succ fuel => rw [readMembers, skipSpace_skipSpace, readMembers]

/-- The first character of a number. -/
def BeginsNumber (character : Char) : Prop :=
  character = '-' ∨ '0' ≤ character ∧ character ≤ '9'

theorem BeginsNumber.ne
    {character : Char}
    (begins : BeginsNumber character)
    (other : Char)
    (different : other ≠ '-' ∧ ¬ ('0' ≤ other ∧ other ≤ '9')) :
    character ≠ other := by
  rintro rfl
  rcases begins with minus | digit
  · exact different.1 minus
  · exact different.2 digit

theorem NumberLiteral.begins (literal : NumberLiteral) :
    ∃ first others, literal.characters = first :: others ∧ BeginsNumber first := by
  unfold characters
  cases literal.negative with
  | true => exact ⟨'-', _, rfl, .inl rfl⟩
  | false =>
      obtain ⟨least, greatest, -⟩ := digitChar_bounds literal.whole.first
      exact ⟨Nat.digitChar literal.whole.first, _, rfl, .inr ⟨least, greatest⟩⟩

/-- A document begins with a token that does not end an array. -/
theorem Spells.begins {document : Document} {characters : List Char}
    (spells : Spells document characters) :
    ∃ first others, characters = first :: others ∧ isSpace (some first) = false ∧ first ≠ ']' := by
  cases spells with
  | null => exact ⟨_, _, rfl, by decide⟩
  | boolTrue => exact ⟨_, _, rfl, by decide⟩
  | boolFalse => exact ⟨_, _, rfl, by decide⟩
  | number literal =>
      obtain ⟨first, others, same, begins⟩ := literal.begins
      refine ⟨first, others, same, ?_, begins.ne ']' (by decide)⟩
      have notSpace := begins.ne ' ' (by decide)
      have notTab := begins.ne '\t' (by decide)
      have notLine := begins.ne '\n' (by decide)
      have notReturn := begins.ne '\r' (by decide)
      simp [isSpace, notSpace, notTab, notLine, notReturn]
  | string spells =>
      cases spells with
      | text spells denotes => exact ⟨_, _, rfl, by decide⟩
      | broken spells textless => exact ⟨_, _, rfl, by decide⟩
  | emptyArray blank => exact ⟨_, _, rfl, by decide⟩
  | array spells => exact ⟨_, _, rfl, by decide⟩
  | emptyObject blank => exact ⟨_, _, rfl, by decide⟩
  | object spells => exact ⟨_, _, rfl, by decide⟩

theorem beginsToken_cons {first : Char} (noSpace : isSpace (some first) = false) (rest : Units) :
    BeginsToken (some first :: rest) := by
  intro unit head
  obtain rfl : some first = unit := Option.some.inj head
  exact noSpace

theorem skipSpace_token {first : Char} (noSpace : isSpace (some first) = false) (rest : Units) :
    skipSpace (some first :: rest) = some first :: rest :=
  skipSpace_of_beginsToken (beginsToken_cons noSpace rest)

theorem ends_token
    {first : Char}
    (token : first = ',' ∨ first = ']' ∨ first = '\x7d')
    (rest : Units) :
    Ends (some first :: rest) := by
  intro character head
  obtain rfl : first = character := Option.some.inj (Option.some.inj head)
  tauto

theorem Spells.beginsToken {document : Document} {characters : List Char}
    (spells : Spells document characters) (rest : Units) :
    BeginsToken (unitsOf characters ++ rest) := by
  obtain ⟨first, others, rfl, noSpace, -⟩ := spells.begins
  exact beginsToken_cons noSpace _

theorem readDocument_number
    (fuel : Nat)
    {first : Char}
    {rest : Units}
    (begins : BeginsNumber first)
    (token : BeginsToken (some first :: rest)) :
    readDocument (fuel + 1) (some first :: rest) =
      (readNumber (some first :: rest)).map fun read => (.number read.1, read.2) := by
  rw [readDocument, skipSpace_of_beginsToken token]
  have notNull := begins.ne 'n' (by decide)
  have notTrue := begins.ne 't' (by decide)
  have notFalse := begins.ne 'f' (by decide)
  have notString := begins.ne '"' (by decide)
  have notArray := begins.ne '[' (by decide)
  have notObject := begins.ne '\x7b' (by decide)
  simp [notNull, notTrue, notFalse, notString, notArray, notObject]

/-- The blanks before the items of an array are no part of its first item. -/
theorem SpellsItems.begins {items : List Document} {characters : List Char}
    (spells : SpellsItems items characters) (rest : Units) :
    ∃ first others, skipSpace (unitsOf characters ++ rest) = some first :: others ∧
      first ≠ ']' := by
  have padded : ∀ {item : Document} {inner : List Char} (rest : Units),
      SpellsPadded item inner →
        ∃ first others, skipSpace (unitsOf inner ++ rest) = some first :: others ∧
          first ≠ ']' := by
    intro item inner rest spells
    obtain @⟨_, before, characters, after, blankBefore, spells, blankAfter⟩ := spells
    obtain ⟨first, others, rfl, noSpace, notEnd⟩ := spells.begins
    refine ⟨first, unitsOf (others ++ after) ++ rest, ?_, notEnd⟩
    rw [unitsOf_append, List.append_assoc, blankBefore.skipSpace_append, List.cons_append]
    exact skipSpace_of_beginsToken (beginsToken_cons noSpace _)
  cases spells with
  | last spells => exact padded rest spells
  | cons spells others =>
      rw [unitsOf_append, List.append_assoc]
      exact padded _ spells

theorem SpellsMembers.begins {members : List (Option String × Document)} {characters : List Char}
    (spells : SpellsMembers members characters) (rest : Units) :
    ∃ others, skipSpace (unitsOf characters ++ rest) = some '"' :: others := by
  have single : ∀ {member : Option String × Document} {inner : List Char} (rest : Units),
      SpellsMember member inner →
        ∃ others, skipSpace (unitsOf inner ++ rest) = some '"' :: others := by
    intro member inner rest spells
    obtain @⟨name, document, before, nameCharacters, after, characters, blankBefore, spellsName,
      blankAfter, spells⟩ := spells
    obtain ⟨others, same, -⟩ := spellsName.read (unitsOf (after ++ ':' :: characters) ++ rest)
    refine ⟨others, ?_⟩
    rw [unitsOf_append, List.append_assoc, blankBefore.skipSpace_append, unitsOf_append,
      List.append_assoc, same]
    exact skipSpace_of_beginsToken (beginsToken_cons (by decide) _)
  cases spells with
  | last spells => exact single rest spells
  | cons spells others =>
      rw [unitsOf_append, List.append_assoc]
      exact single _ spells

theorem SpellsItems.length_positive {items : List Document} {characters : List Char}
    (spells : SpellsItems items characters) : 0 < characters.length := by
  obtain ⟨first, others, begins, -⟩ := spells.begins []
  apply List.length_pos_iff.mpr
  rintro rfl
  cases begins

theorem SpellsMembers.length_positive {members : List (Option String × Document)}
    {characters : List Char} (spells : SpellsMembers members characters) :
    0 < characters.length := by
  obtain ⟨others, begins⟩ := spells.begins []
  apply List.length_pos_iff.mpr
  rintro rfl
  cases begins

mutual

theorem Spells.read {document : Document} {characters : List Char}
    (spells : Spells document characters) (fuel : Nat) (rest : Units)
    (enough : 2 * characters.length ≤ fuel + 1) (ends : Ends rest) :
    readDocument fuel (unitsOf characters ++ rest) = some (document, rest) := by
  have token := spells.beginsToken rest
  obtain ⟨fuel, rfl⟩ : ∃ less, fuel = less + 1 := by
    obtain ⟨first, others, rfl, -⟩ := spells.begins
    simp only [List.length_cons] at enough
    exact ⟨fuel - 1, by omega⟩
  cases spells with
  | null => rw [readDocument, skipSpace_of_beginsToken token]; rfl
  | boolTrue => rw [readDocument, skipSpace_of_beginsToken token]; rfl
  | boolFalse => rw [readDocument, skipSpace_of_beginsToken token]; rfl
  | number literal =>
      have read := literal.read ends
      obtain ⟨first, others, same, begins⟩ := literal.begins
      rw [same, unitsOf_cons, List.cons_append] at read token ⊢
      rw [readDocument_number fuel begins token, read, Option.map_some]
  | string spells =>
      obtain ⟨inner, same, read⟩ := spells.read rest
      rw [readDocument, skipSpace_of_beginsToken token, same]
      simp only [read, Option.map_some]
  | @emptyArray blanks blank =>
      rw [readDocument, skipSpace_of_beginsToken token]
      have closes : skipSpace (unitsOf blanks ++ (some ']' :: rest)) = some ']' :: rest :=
        (blank.skipSpace_append _).trans
          (skipSpace_of_beginsToken (beginsToken_cons (by decide) _))
      simp [closes]
  | @array items characters spells =>
      have read := spells.read fuel rest
        (by simp only [List.length_cons, List.length_append] at enough; omega)
      obtain ⟨first, others, begins, notEnd⟩ := spells.begins (some ']' :: rest)
      rw [← readItems_skipSpace, begins] at read
      rw [readDocument, skipSpace_of_beginsToken token]
      simp [begins, notEnd, read]
  | @emptyObject blanks blank =>
      rw [readDocument, skipSpace_of_beginsToken token]
      have closes : skipSpace (unitsOf blanks ++ (some '\x7d' :: rest)) = some '\x7d' :: rest :=
        (blank.skipSpace_append _).trans
          (skipSpace_of_beginsToken (beginsToken_cons (by decide) _))
      simp [closes]
  | @object members characters spells =>
      have read := spells.read fuel rest
        (by simp only [List.length_cons, List.length_append] at enough; omega)
      obtain ⟨others, begins⟩ := spells.begins (some '\x7d' :: rest)
      rw [← readMembers_skipSpace, begins] at read
      rw [readDocument, skipSpace_of_beginsToken token]
      simp [begins, read]

theorem SpellsPadded.read {document : Document} {characters : List Char}
    (spells : SpellsPadded document characters) (fuel : Nat) (rest : Units)
    (enough : 2 * characters.length ≤ fuel + 1) (ends : Ends rest) :
    ∃ after, readDocument fuel (unitsOf characters ++ rest) = some (document, after) ∧
      skipSpace after = skipSpace rest := by
  cases spells with
  | @mk document before inner after blankBefore spells blankAfter =>
    refine ⟨unitsOf after ++ rest, ?_, blankAfter.skipSpace_append rest⟩
    rw [← readDocument_skipSpace, unitsOf_append, List.append_assoc,
      blankBefore.skipSpace_append, readDocument_skipSpace, unitsOf_append, List.append_assoc]
    refine spells.read fuel _ ?_ (blankAfter.ends_append ends)
    simp only [List.length_append] at enough
    omega

theorem SpellsItems.read {items : List Document} {characters : List Char}
    (spells : SpellsItems items characters) (fuel : Nat) (rest : Units)
    (enough : 2 * characters.length ≤ fuel) :
    readItems fuel (unitsOf characters ++ some ']' :: rest) = some (items, rest) := by
  have positive := spells.length_positive
  obtain ⟨fuel, rfl⟩ : ∃ less, fuel = less + 1 := ⟨fuel - 1, by omega⟩
  cases spells with
  | last spells =>
      obtain ⟨after, read, skips⟩ :=
        spells.read fuel (some ']' :: rest) enough (ends_token (by decide) _)
      rw [skipSpace_token (by decide)] at skips
      rw [readItems, read]
      simp [skips]
  | @cons item items characters more spells others =>
      simp only [List.length_append, List.length_cons] at enough
      have later := others.read fuel rest (by omega)
      obtain ⟨after, read, skips⟩ :=
        spells.read fuel (some ',' :: (unitsOf more ++ some ']' :: rest)) (by omega)
          (ends_token (by decide) _)
      rw [skipSpace_token (by decide)] at skips
      have split : unitsOf (characters ++ ',' :: more) ++ some ']' :: rest =
          unitsOf characters ++ some ',' :: (unitsOf more ++ some ']' :: rest) := by
        simp
      rw [readItems, split, read]
      simp [skips, later]

/-- Reads one member, and leaves the units from its end on. -/
theorem SpellsMember.read {member : Option String × Document} {characters : List Char}
    (spells : SpellsMember member characters) (fuel : Nat) (rest : Units)
    (enough : 2 * characters.length ≤ fuel + 1) (ends : Ends rest) :
    ∃ afterQuote afterName afterColon afterItem,
      skipSpace (unitsOf characters ++ rest) = some '"' :: afterQuote ∧
      readString afterQuote = some (member.1, afterName) ∧
      skipSpace afterName = some ':' :: afterColon ∧
      readDocument fuel afterColon = some (member.2, afterItem) ∧
      skipSpace afterItem = skipSpace rest := by
  cases spells with
  | @mk name document before nameCharacters after characters blankBefore spellsName blankAfter
      spells =>
    obtain ⟨afterQuote, same, read⟩ :=
      spellsName.read (unitsOf after ++ some ':' :: (unitsOf characters ++ rest))
    obtain ⟨afterItem, item, skips⟩ := spells.read fuel rest
      (by simp only [List.length_append, List.length_cons] at enough; omega) ends
    refine ⟨afterQuote, _, unitsOf characters ++ rest, afterItem, ?_, read, ?_, item, skips⟩
    · have split : unitsOf (before ++ (nameCharacters ++ (after ++ ':' :: characters))) ++ rest =
          unitsOf before ++ (unitsOf nameCharacters ++
            (unitsOf after ++ some ':' :: (unitsOf characters ++ rest))) := by
        simp
      rw [split, blankBefore.skipSpace_append, same]
      exact skipSpace_token (by decide) _
    · rw [blankAfter.skipSpace_append]
      exact skipSpace_token (by decide) _

theorem SpellsMembers.read {members : List (Option String × Document)} {characters : List Char}
    (spells : SpellsMembers members characters) (fuel : Nat) (rest : Units)
    (enough : 2 * characters.length ≤ fuel) :
    readMembers fuel (unitsOf characters ++ some '\x7d' :: rest) = some (members, rest) := by
  have positive := spells.length_positive
  obtain ⟨fuel, rfl⟩ : ∃ less, fuel = less + 1 := ⟨fuel - 1, by omega⟩
  cases spells with
  | last spells =>
      obtain ⟨afterQuote, afterName, afterColon, afterItem, quote, name, colon, item, skips⟩ :=
        spells.read fuel (some '\x7d' :: rest) enough (ends_token (by decide) _)
      rw [skipSpace_token (by decide)] at skips
      rw [readMembers]
      simp [quote, name, colon, item, skips]
  | @cons member members characters more spells others =>
      simp only [List.length_append, List.length_cons] at enough
      have later := others.read fuel rest (by omega)
      obtain ⟨afterQuote, afterName, afterColon, afterItem, quote, name, colon, item, skips⟩ :=
        spells.read fuel (some ',' :: (unitsOf more ++ some '\x7d' :: rest)) (by omega)
          (ends_token (by decide) _)
      rw [skipSpace_token (by decide)] at skips
      have split : unitsOf (characters ++ ',' :: more) ++ some '\x7d' :: rest =
          unitsOf characters ++ some ',' :: (unitsOf more ++ some '\x7d' :: rest) := by
        simp
      rw [readMembers, split]
      simp [quote, name, colon, item, skips, later]

end

/-- Units that spell a document, with blanks around it, read as that document. -/
theorem SpellsPadded.ofUnits?_eq {document : Document} {characters : List Char}
    (spells : SpellsPadded document characters) :
    Document.ofUnits? (unitsOf characters) = some document := by
  obtain ⟨after, read, skips⟩ :=
    spells.read (2 * (unitsOf characters).length + 2) [] (by rw [length_unitsOf]; omega) ends_nil
  rw [List.append_nil] at read
  rw [Document.ofUnits?, read]
  simp only [skips]
  rfl

/-- A text that spells a document, with blanks around it, reads as that document. -/
theorem ofText?_of_spells {document : Document} {text : String}
    (spells : SpellsPadded document text.toList) :
    Document.ofText? text = some document :=
  spells.ofUnits?_eq

theorem ofBytes?_of_spells {document : Document} {text : String}
    (spells : SpellsPadded document text.toList) :
    Document.ofBytes? (Text.Utf8.encode text.toList) = some document := by
  rw [Document.ofBytes?, Text.Utf8.units_encode]
  exact spells.ofUnits?_eq

end Precis.Json

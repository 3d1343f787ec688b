import Mathlib.Data.List.Basic
import Precis.Proofs.Text.Utf8
import Precis.Url.Parse

/-!
Contract: what percent encoding makes of a text.

Owns that an encoded text holds no character that its component must encode, so
that encoding it again changes nothing; that it is made of visible characters
of ASCII; that encoding makes no segment of dots; and that decoding leaves
alone what holds no percent sign.

Does not own the components.
-/

namespace Precis.Url

/-! ### Encoded texts -/

/-- A text that holds nothing which a component must encode. -/
def Encoded (set : EncodeSet) (text : List Char) : Prop :=
  ∀ character ∈ text, set character = false

/-- A character outside a set is none of those in it. -/
theorem EncodeSet.ne
    {set : EncodeSet}
    {character mark : Char}
    (free : set character = false)
    (held : set mark = true) :
    character ≠ mark := by
  rintro rfl
  rw [held] at free
  cases free

/-- A set without the characters that encoded bytes are written with. -/
structure EncodeSet.Keeps (set : EncodeSet) : Prop where
  percent : set '%' = false
  digit : ∀ value < 16, set (upperHexDigit value) = false

theorem userinfoSet_keeps : EncodeSet.Keeps userinfoSet := ⟨by decide, by decide⟩

theorem pathSet_keeps : EncodeSet.Keeps pathSet := ⟨by decide, by decide⟩

theorem specialQuerySet_keeps : EncodeSet.Keeps specialQuerySet := ⟨by decide, by decide⟩

theorem fragmentSet_keeps : EncodeSet.Keeps fragmentSet := ⟨by decide, by decide⟩

section Encode

variable {set : EncodeSet}

/-- A character of an encoded text stood in the text, or belongs to an encoded byte. -/
theorem mem_encode {text : List Char} {character : Char} (member : character ∈ encode set text) :
    (character ∈ text ∧ set character = false) ∨ character = '%' ∨
      ∃ value < 16, character = upperHexDigit value := by
  obtain ⟨original, inside, member⟩ := List.mem_flatMap.mp member
  unfold encodeChar at member
  split at member
  case isTrue =>
    obtain ⟨byte, -, member⟩ := List.mem_flatMap.mp member
    have small := byte.toNat_lt
    simp only [encodeByte, List.mem_cons, List.not_mem_nil, or_false] at member
    rcases member with rfl | rfl | rfl
    · exact .inr (.inl rfl)
    · exact .inr (.inr ⟨_, by omega, rfl⟩)
    · exact .inr (.inr ⟨_, Nat.mod_lt _ (by decide), rfl⟩)
  case isFalse kept =>
    rw [List.mem_singleton.mp member]
    exact .inl ⟨inside, Bool.eq_false_iff.mpr kept⟩

theorem encoded_encode (keeps : set.Keeps) (text : List Char) : Encoded set (encode set text) := by
  intro character member
  rcases mem_encode member with ⟨-, free⟩ | rfl | ⟨value, small, rfl⟩
  · exact free
  · exact keeps.percent
  · exact keeps.digit value small

theorem Encoded.encode_eq {text : List Char} (encoded : Encoded set text) :
    encode set text = text := by
  have each : ∀ character ∈ text, encodeChar set character = [character] := by
    intro character inside
    rw [encodeChar, encoded character inside, if_neg Bool.false_ne_true]
  rw [encode, List.flatMap_congr each, List.flatMap_singleton']

theorem exists_encodeChar_eq {character : Char} (held : set character = true) :
    ∃ byte rest, Text.Utf8.encodeChar character = byte :: rest ∧
      encodeChar set character = encodeByte byte ++ rest.flatMap encodeByte := by
  obtain ⟨byte, rest, isBytes⟩ : ∃ byte rest, Text.Utf8.encodeChar character = byte :: rest := by
    unfold Text.Utf8.encodeChar
    simp only
    split
    · exact ⟨_, _, rfl⟩
    · split
      · exact ⟨_, _, rfl⟩
      · split
        · exact ⟨_, _, rfl⟩
        · exact ⟨_, _, rfl⟩
  refine ⟨byte, rest, isBytes, ?_⟩
  rw [encodeChar, if_pos held, isBytes, List.flatMap_cons]

theorem encodeChar_ne_nil (character : Char) : encodeChar set character ≠ [] := by
  by_cases held : set character = true
  · obtain ⟨byte, rest, -, isEncoded⟩ := exists_encodeChar_eq held
    rw [isEncoded]
    exact List.cons_ne_nil _ _
  · rw [encodeChar, if_neg held]
    exact List.cons_ne_nil _ _

theorem encode_eq_nil_iff {text : List Char} : encode set text = [] ↔ text = [] := by
  cases text with
  | nil => exact Iff.rfl
  | cons first rest => simp [encode, encodeChar_ne_nil]

end Encode

/-! ### Visible characters -/

/-- A character of ASCII that is neither blank nor a control. -/
def IsVisible (character : Char) : Prop :=
  0x21 ≤ character.toNat ∧ character.toNat ≤ 0x7e

instance : DecidablePred IsVisible :=
  fun character => inferInstanceAs (Decidable (0x21 ≤ character.toNat ∧ character.toNat ≤ 0x7e))

theorem isVisible_of_control
    {character : Char}
    (noControl : controlSet character = false)
    (noSpace : character ≠ ' ') :
    IsVisible character := by
  unfold controlSet at noControl
  simp only [Bool.or_eq_false_iff, decide_eq_false_iff_not] at noControl
  have notSpace : character.toNat ≠ 0x20 := fun same => noSpace (Char.ext (UInt32.toNat.inj same))
  unfold IsVisible
  omega

theorem isVisible_of_fragmentSet {character : Char} (free : fragmentSet character = false) :
    IsVisible character :=
  isVisible_of_control (Bool.or_eq_false_iff.mp free).1 (EncodeSet.ne free rfl)

theorem fragmentSet_of_pathSet {character : Char} (free : pathSet character = false) :
    fragmentSet character = false :=
  (Bool.or_eq_false_iff.mp free).1

theorem pathSet_of_userinfoSet {character : Char} (free : userinfoSet character = false) :
    pathSet character = false :=
  (Bool.or_eq_false_iff.mp free).1

theorem isVisible_of_specialQuerySet {character : Char}
    (free : specialQuerySet character = false) :
    IsVisible character := by
  have query : querySet character = false := (Bool.or_eq_false_iff.mp free).1
  exact isVisible_of_control (Bool.or_eq_false_iff.mp query).1 (EncodeSet.ne free rfl)

/-! ### Segments of dots -/

/-- The texts that stand for a directory. -/
def dots : List (List Char) :=
  [".", "%2e", "..", ".%2e", "%2e.", "%2e%2e"].map String.toList

theorem isSingleDot_or_isDoubleDot_iff {segment : List Char} :
    isSingleDot segment = true ∨ isDoubleDot segment = true ↔ segment.map Char.toLower ∈ dots := by
  unfold isSingleDot isDoubleDot dots
  rw [List.contains_iff_mem, List.contains_iff_mem, ← List.mem_append, List.mem_map]
  constructor
  · intro member
    exact ⟨_, member, String.toList_ofList⟩
  · rintro ⟨text, member, isText⟩
    rw [← isText, String.ofList_toList]
    exact member

/-- In a text that stands for a directory, a percent sign begins an encoded dot. -/
theorem escape_of_mem_dots
    {text before after : List Char}
    {high low : Char}
    (isDots : text ∈ dots)
    (place : text = before ++ '%' :: high :: low :: after) :
    high = '2' ∧ low = 'e' := by
  have escapes : ∀ text ∈ dots, text.length ≤ 6 ∧ ∀ index < 6, text[index]? = some '%' →
      text[index + 1]? = some '2' ∧ text[index + 2]? = some 'e' := by
    decide
  obtain ⟨short, atPercent⟩ := escapes text isDots
  have inside : before.length < 6 := by
    rw [place, List.length_append] at short
    simp only [List.length_cons] at short
    omega
  obtain ⟨isTwo, isE⟩ := atPercent before.length inside (by rw [place]; simp)
  rw [place] at isTwo isE
  simp at isTwo isE
  exact ⟨isTwo, isE⟩

theorem byte_of_escape
    {byte : UInt8}
    (isTwo : (upperHexDigit (byte.toNat / 16)).toLower = '2')
    (isE : (upperHexDigit (byte.toNat % 16)).toLower = 'e') :
    byte.toNat = 0x2e := by
  have digits : ∀ value < 16, ((upperHexDigit value).toLower = '2' → value = 2) ∧
      ((upperHexDigit value).toLower = 'e' → value = 14) := by
    decide
  have small := byte.toNat_lt
  have high := (digits _ (by omega : byte.toNat / 16 < 16)).1 isTwo
  have low := (digits _ (by omega : byte.toNat % 16 < 16)).2 isE
  omega

theorem eq_dot_of_encodeChar
    {character : Char}
    {byte : UInt8}
    {rest : List UInt8}
    (isBytes : Text.Utf8.encodeChar character = byte :: rest)
    (isDot : byte.toNat = 0x2e) :
    character = '.' := by
  have range := Text.Utf8.toNat_range character
  -- Only one byte of its own is below 0x80; a longer form begins with a larger one.
  have notLead {value : Nat} (lead : 0xc0 ≤ value) (small : value < 0x100)
      (isByte : UInt8.ofNat value = byte) : False := by
    have same := Text.Utf8.toNat_ofNat_of_lt small
    rw [isByte] at same
    omega
  unfold Text.Utf8.encodeChar at isBytes
  simp only at isBytes
  split at isBytes
  case isTrue one =>
    have same := Text.Utf8.toNat_ofNat_of_lt (by omega : character.toNat < 0x100)
    rw [(List.cons.inj isBytes).1, isDot] at same
    exact Char.ext (UInt32.toNat.inj same.symm)
  case isFalse =>
    split at isBytes
    case isTrue => exact (notLead (by omega) (by omega) (List.cons.inj isBytes).1).elim
    case isFalse =>
      split at isBytes
      case isTrue => exact (notLead (by omega) (by omega) (List.cons.inj isBytes).1).elim
      case isFalse => exact (notLead (by omega) (by omega) (List.cons.inj isBytes).1).elim

/-- Encoding makes no segment that stands for a directory. -/
theorem encode_eq_of_mem_dots {segment : List Char}
    (isDots : (encode pathSet segment).map Char.toLower ∈ dots) :
    encode pathSet segment = segment := by
  apply Encoded.encode_eq
  intro character inside
  by_contra held
  rw [Bool.not_eq_false] at held
  obtain ⟨before, after, rfl⟩ := List.append_of_mem inside
  obtain ⟨byte, rest, isBytes, isEncoded⟩ := exists_encodeChar_eq held
  have place : (encode pathSet (before ++ character :: after)).map Char.toLower =
      (encode pathSet before).map Char.toLower ++
        '%' :: (upperHexDigit (byte.toNat / 16)).toLower ::
          (upperHexDigit (byte.toNat % 16)).toLower ::
            (rest.flatMap encodeByte ++ encode pathSet after).map Char.toLower := by
    have lowered : Char.toLower '%' = '%' := by decide
    simp only [encode, List.flatMap_append, List.flatMap_cons, isEncoded, encodeByte,
      List.map_append, List.map_cons, List.cons_append, List.nil_append, lowered]
  obtain ⟨isTwo, isE⟩ := escape_of_mem_dots isDots place
  have isDot := eq_dot_of_encodeChar isBytes (byte_of_escape isTwo isE)
  rw [isDot] at held
  cases held

/-! ### Decoding -/

theorem decodeBytes_eq {bytes : List UInt8} (plain : ∀ byte ∈ bytes, byte ≠ 0x25) :
    decodeBytes bytes = bytes := by
  induction bytes with
  | nil => rw [decodeBytes]
  | cons byte rest inductionHypothesis =>
      rw [List.forall_mem_cons] at plain
      rw [decodeBytes, inductionHypothesis plain.2]
      rintro high low others rfl
      exact absurd rfl plain.1

/-- A text of ASCII without percent signs is what its decoded bytes spell. -/
theorem decode?_decodeBytes_encode {text : List Char}
    (plain : ∀ character ∈ text, character.toNat < 0x80 ∧ character ≠ '%') :
    Text.Utf8.decode? (decodeBytes (Text.Utf8.encode text)) = some text := by
  rw [decodeBytes_eq]
  · exact Text.Utf8.decode?_eq_some_iff.mpr rfl
  · intro byte member
    obtain ⟨character, inside, member⟩ := List.mem_flatMap.mp member
    obtain ⟨ascii, noPercent⟩ := plain character inside
    rw [Text.Utf8.encodeChar, if_pos ascii, List.mem_singleton] at member
    rintro rfl
    apply noPercent
    have same := Text.Utf8.toNat_ofNat_of_lt (by omega : character.toNat < 0x100)
    rw [← member] at same
    exact Char.ext (UInt32.toNat.inj same.symm)

end Precis.Url

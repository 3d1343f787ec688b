import Precis.Json.Writer
import Precis.Proofs.Json.Reading

/-!
Contract: what is written is JSON, and reads as what was written.

Owns that the compact spelling of a generic value follows the grammar, for
values whose numbers are naturals of 64 bits, so that a reader finds the value
as a document again.

Does not own the spelling of reals, or how a record is read from a document.
-/

namespace Precis.Json

/-! ### Numbers -/

theorem Number.ofDigits_append (left : List Nat) (digit : Nat) :
    Number.ofDigits (left ++ [digit]) = Number.ofDigits left * 10 + digit := by
  unfold Number.ofDigits
  rw [List.foldl_append]
  rfl

/-- The decimal digits of a natural number, without a zero in front. -/
theorem exists_digits (number : Nat) :
    ∃ digits : Digits, digits.characters = Nat.toDigits 10 number ∧
      Number.ofDigits digits.values = number ∧ (digits.first = 0 → digits.others = []) := by
  induction number using Nat.strongRecOn with
  | ind number inductionHypothesis =>
      by_cases small : number < 10
      · refine ⟨⟨⟨number, small⟩, []⟩, ?_, ?_, fun _ => rfl⟩
        · exact (Nat.toDigits_of_lt_base small).symm
        · exact Nat.zero_add number
      · have large : 10 ≤ number := Nat.le_of_not_lt small
        obtain ⟨front, characters, value, zeroAlone⟩ :=
          inductionHypothesis (number / 10) (Nat.div_lt_self (by omega) (by omega))
        let last : Fin 10 := ⟨number % 10, Nat.mod_lt _ (by omega)⟩
        have values : (Digits.mk front.first (front.others ++ [last])).values =
            front.values ++ [number % 10] := by
          simp [Digits.values, last]
        refine ⟨⟨front.first, front.others ++ [last]⟩, ?_, ?_, fun zero => ?_⟩
        · rw [Digits.characters, values, List.map_append, Nat.toDigits_of_base_le (by omega) large,
            ← characters]
          rfl
        · rw [values, Number.ofDigits_append, value]
          omega
        · -- The digits in front of the last one make up a number that is not zero.
          exfalso
          have alone : front.others = [] := zeroAlone zero
          have : Number.ofDigits front.values = 0 := by
            simp only at zero
            rw [Digits.values, alone, zero]
            rfl
          omega

/-- The literal of a natural number. -/
theorem exists_naturalLiteral {number : Nat} (bounded : number ≤ Number.significandLimit) :
    ∃ literal : NumberLiteral, literal.number = .integer number ∧
      literal.characters = (Number.integer number).text.toList := by
  obtain ⟨digits, characters, value, zeroAlone⟩ := exists_digits number
  refine ⟨⟨false, digits, zeroAlone, none, none⟩, ?_, ?_⟩
  · show Number.integerOfDigits false digits.values = _
    simp [Number.integerOfDigits, value, bounded]
  · show digits.characters ++ ([] ++ []) = (Nat.repr number).toList
    rw [List.append_nil, List.append_nil, characters, Nat.repr_eq_ofList_toDigits,
      String.toList_ofList]

/-! ### Strings -/

theorem spellsUnit_control {character : Char} (control : character.toNat < 0x20) :
    SpellsUnit character.toNat
      ['\\', 'u', '0', '0', Text.Hexadecimal.digit (character.toNat / 16),
        Text.Hexadecimal.digit (character.toNat % 16)] := by
  have code : ((0 * 16 + 0) * 16 + character.toNat / 16) * 16 + character.toNat % 16 =
      character.toNat := by omega
  rw [← code]
  apply SpellsUnit.code rfl rfl
  · rw [code]
    exact Text.Hexadecimal.value?_digit (by omega)
  · rw [code]
    exact Text.Hexadecimal.value?_digit (by omega)

theorem spellsUnit_spellChar (character : Char) :
    SpellsUnit character.toNat (spellChar character) := by
  unfold spellChar
  split
  · exact .short (by decide)
  · exact .short (by decide)
  · exact .short (by decide)
  · exact .short (by decide)
  · exact .short (by decide)
  · exact .short (by decide)
  · exact .short (by decide)
  · split
    case isTrue control => exact spellsUnit_control control
    case isFalse noControl => exact .plain (by omega) ‹_› ‹_›

theorem spellsUnits_spellChar (text : List Char) :
    SpellsUnits (text.map Char.toNat) (text.flatMap spellChar) := by
  induction text with
  | nil => exact .nil
  | cons character rest inductionHypothesis =>
      exact .cons (spellsUnit_spellChar character) inductionHypothesis

theorem denotes_codes (text : List Char) : Denotes (text.map Char.toNat) text := by
  induction text with
  | nil => exact .nil
  | cons character rest inductionHypothesis => exact .character character inductionHypothesis

theorem spellsString_spellString (text : String) : SpellsString (some text) (spellString text) :=
  .text (spellsUnits_spellChar text.toList) (denotes_codes text.toList)

/-! ### Values -/

mutual

/-- A value that is written exactly: its numbers are naturals of 64 bits. -/
def Value.Exact : Value → Prop
  | .number value => ∃ natural, natural ≤ Number.significandLimit ∧ value = .integer natural
  | .array items => ItemsExact items
  | .object members => MembersExact members
  | _ => True

def ItemsExact : List Value → Prop
  | [] => True
  | item :: rest => item.Exact ∧ ItemsExact rest

def MembersExact : List (String × Value) → Prop
  | [] => True
  | (_, value) :: rest => value.Exact ∧ MembersExact rest

end

theorem membersExact_iff {members : List (String × Value)} :
    MembersExact members ↔ ∀ member ∈ members, member.2.Exact := by
  induction members with
  | nil => simp [MembersExact]
  | cons member rest inductionHypothesis => simp [MembersExact, inductionHypothesis]

theorem blanks_nil : Blanks [] :=
  fun _ member => nomatch member

theorem SpellsPadded.bare {document : Document} {characters : List Char}
    (spells : Spells document characters) : SpellsPadded document characters := by
  have padded := SpellsPadded.mk blanks_nil spells blanks_nil
  rwa [List.append_nil, List.nil_append] at padded

theorem SpellsMember.bare
    {document : Document}
    {characters : List Char}
    (name : String)
    (spells : Spells document characters) :
    SpellsMember (some name, document) (spellString name ++ ':' :: characters) := by
  have member :=
    SpellsMember.mk blanks_nil (spellsString_spellString name) blanks_nil (.bare spells)
  rwa [List.nil_append, List.nil_append] at member

mutual

theorem Value.spells_spell (value : Value) (exactly : value.Exact) :
    Spells value.toDocument value.spell := by
  cases value with
  | null => exact .null
  | bool flag =>
      cases flag with
      | true => exact .boolTrue
      | false => exact .boolFalse
  | number number =>
      obtain ⟨natural, bounded, rfl⟩ := exactly
      obtain ⟨literal, number, characters⟩ := exists_naturalLiteral bounded
      show Spells (.number (.integer natural)) (Number.integer natural).text.toList
      rw [← characters, ← number]
      exact .number literal
  | string text => exact .string (spellsString_spellString text)
  | array items =>
      cases items with
      | nil => exact .emptyArray blanks_nil
      | cons first rest =>
          exact .array (spellsItems_spellItems (first :: rest) exactly (List.cons_ne_nil _ _))
  | object members =>
      cases members with
      | nil => exact .emptyObject blanks_nil
      | cons first rest =>
          exact .object (spellsMembers_spellMembers (first :: rest) exactly (List.cons_ne_nil _ _))

theorem spellsItems_spellItems (items : List Value) (exactly : ItemsExact items)
    (notEmpty : items ≠ []) : SpellsItems (itemsToDocuments items) (spellItems items) := by
  match items with
  | [] => exact absurd rfl notEmpty
  | [item] => exact .last (.bare (item.spells_spell exactly.1))
  | item :: second :: rest =>
      exact .cons (.bare (item.spells_spell exactly.1))
        (spellsItems_spellItems (second :: rest) exactly.2 (List.cons_ne_nil _ _))

theorem spellsMembers_spellMembers (members : List (String × Value))
    (exactly : MembersExact members) (notEmpty : members ≠ []) :
    SpellsMembers (membersToDocuments members) (spellMembers members) := by
  match members with
  | [] => exact absurd rfl notEmpty
  | [(name, value)] => exact .last (.bare name (value.spells_spell exactly.1))
  | (name, value) :: second :: rest =>
      have first := SpellsMember.bare name (value.spells_spell exactly.1)
      have others := spellsMembers_spellMembers (second :: rest) exactly.2 (List.cons_ne_nil _ _)
      have all := SpellsMembers.cons first others
      rwa [List.append_assoc] at all

end

/-- The text of a value spells it. -/
theorem Value.spellsPadded_text {value : Value} (exactly : value.Exact) :
    SpellsPadded value.toDocument value.text.toList := by
  rw [Value.text, String.toList_ofList]
  exact .bare (value.spells_spell exactly)

end Precis.Json

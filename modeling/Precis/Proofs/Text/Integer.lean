import Mathlib.Data.Nat.Digits.Defs
import Precis.Proofs.Result
import Precis.Text.Integer

/-!
Contract: which integer a text denotes.

Owns a grammar of integers, digits with a sign in front where one may stand,
and that reading gives exactly the integers that the grammar gives, within the
range asked for.

Does not own which failure is reported for a text that denotes none.
-/

namespace Precis.Text

/-- One or more digits, and the number that they denote in base ten. -/
structure Numeral (characters : List Char) (number : Nat) : Prop where
  notEmpty : characters ≠ []
  digits : ∀ character ∈ characters, character.isDigit = true
  value : Nat.ofDigitChars 10 characters 0 = number

/-- The integers that texts denote. A minus sign may stand where the range holds
negative numbers. -/
inductive Denotes (range : IntegerRange) : List Char → Int → Prop
  | plain
      {characters : List Char}
      {number : Nat}
      (numeral : Numeral characters number) :
      Denotes range characters number
  | plus
      {characters : List Char}
      {number : Nat}
      (numeral : Numeral characters number) :
      Denotes range ('+' :: characters) number
  | minus
      {characters : List Char}
      {number : Nat}
      (signed : range.least < 0)
      (numeral : Numeral characters number) :
      Denotes range ('-' :: characters) (-number)

/-! ### Digits -/

theorem digitValue?_eq_some_iff {character : Char} {digit : Nat} :
    digitValue? character = some digit ↔
      character.isDigit = true ∧ character.toNat - '0'.toNat = digit := by
  have range : character.isDigit = true ↔ '0' ≤ character ∧ character ≤ '9' := by
    rw [Char.isDigit_iff_toNat]
    exact Iff.rfl
  unfold digitValue?
  rw [range]
  by_cases inRange : '0' ≤ character ∧ character ≤ '9'
  · rw [if_pos inRange]
    simp [inRange]
  · rw [if_neg inRange]
    simp only [reduceCtorEq, false_iff]
    exact fun both => inRange both.1

theorem le_ofDigitChars (digits : List Char) (start : Nat) :
    start ≤ Nat.ofDigitChars 10 digits start := by
  rw [Nat.ofDigitChars_eq_ofDigitChars_zero]
  have positive : 1 ≤ 10 ^ digits.length := Nat.one_le_pow _ _ (by omega)
  calc
    start = 1 * start := (Nat.one_mul start).symm
    _ ≤ 10 ^ digits.length * start := Nat.mul_le_mul_right start positive
    _ ≤ _ := Nat.le_add_right _ _

theorem readMagnitude_eq_ok_iff
    {bound start value : Nat}
    {overflow : IntegerError}
    {digits : List Char}
    (within : start ≤ bound) :
    readMagnitude bound overflow start digits = .ok value ↔
      (∀ character ∈ digits, character.isDigit = true) ∧
        Nat.ofDigitChars 10 digits start = value ∧ value ≤ bound := by
  induction digits generalizing start with
  | nil =>
      simp only [readMagnitude, Except.ok.injEq, List.not_mem_nil, false_imp_iff, implies_true,
        Nat.ofDigitChars_nil, true_and]
      constructor
      · rintro rfl
        exact ⟨rfl, within⟩
      · exact And.left
  | cons character rest inductionHypothesis =>
      rw [readMagnitude, List.forall_mem_cons, Nat.ofDigitChars_cons]
      cases isDigit : digitValue? character with
      | none =>
          have noDigit : ¬ character.isDigit = true := by
            intro digit
            rw [digitValue?_eq_some_iff.mpr ⟨digit, rfl⟩] at isDigit
            contradiction
          simp [noDigit]
      | some digit =>
          obtain ⟨holds, rfl⟩ := digitValue?_eq_some_iff.mp isDigit
          rw [Nat.mul_comm 10 start]
          simp only [holds, true_and]
          by_cases passes : bound < start * 10 + (character.toNat - '0'.toNat)
          · rw [if_pos passes]
            simp only [reduceCtorEq, false_iff]
            rintro ⟨-, rfl, bounded⟩
            exact absurd (Nat.le_trans (le_ofDigitChars rest _) bounded) (Nat.not_le.mpr passes)
          · rw [if_neg passes]
            exact inductionHypothesis (Nat.le_of_not_lt passes)

/-! ### Integers -/

theorem Numeral.head_isDigit
    {first : Char}
    {rest : List Char}
    {number : Nat}
    (numeral : Numeral (first :: rest) number) :
    first.isDigit = true :=
  numeral.digits first List.mem_cons_self

section Signs

variable {range : IntegerRange} {characters : List Char} {value : Int}

theorem denotes_plus_iff :
    Denotes range ('+' :: characters) value ↔
      ∃ number : Nat, Numeral characters number ∧ value = number := by
  constructor
  · intro denotes
    cases denotes with
    | plain numeral => exact absurd numeral.head_isDigit (by decide)
    | plus numeral => exact ⟨_, numeral, rfl⟩
  · rintro ⟨number, numeral, rfl⟩
    exact .plus numeral

theorem denotes_minus_iff :
    Denotes range ('-' :: characters) value ↔
      range.least < 0 ∧ ∃ number : Nat, Numeral characters number ∧ value = -number := by
  constructor
  · intro denotes
    cases denotes with
    | plain numeral => exact absurd numeral.head_isDigit (by decide)
    | minus signed numeral => exact ⟨signed, _, numeral, rfl⟩
  · rintro ⟨signed, number, numeral, rfl⟩
    exact .minus signed numeral

theorem denotes_iff_of_unsigned
    {first : Char}
    (noPlus : first ≠ '+')
    (noMinus : first ≠ '-') :
    Denotes range (first :: characters) value ↔
      ∃ number : Nat, Numeral (first :: characters) number ∧ value = number := by
  constructor
  · intro denotes
    cases denotes with
    | plain numeral => exact ⟨_, numeral, rfl⟩
    | plus numeral => exact absurd rfl noPlus
    | minus signed numeral => exact absurd rfl noMinus
  · rintro ⟨number, numeral, rfl⟩
    exact .plain numeral

variable (notEmpty : characters ≠ [])

include notEmpty

theorem readMagnitude_eq_ok_iff_numeral {bound number : Nat} {overflow : IntegerError} :
    readMagnitude bound overflow 0 characters = .ok number ↔
      Numeral characters number ∧ number ≤ bound := by
  rw [readMagnitude_eq_ok_iff (Nat.zero_le bound)]
  constructor
  · rintro ⟨digits, isNumber, bounded⟩
    exact ⟨⟨notEmpty, digits, isNumber⟩, bounded⟩
  · rintro ⟨numeral, bounded⟩
    exact ⟨numeral.digits, numeral.value, bounded⟩

/-- Digits without a minus sign are read up to the greatest integer of the range. -/
theorem map_ofNat_eq_ok_iff :
    (readMagnitude range.greatest.toNat .tooLarge 0 characters).map Int.ofNat = .ok value ↔
      (∃ number : Nat, Numeral characters number ∧ value = number) ∧
        range.least ≤ value ∧ value ≤ range.greatest := by
  have least := range.least_nonpositive
  have greatest := Int.toNat_of_nonneg range.greatest_nonnegative
  rw [map_eq_ok_iff]
  simp only [readMagnitude_eq_ok_iff_numeral notEmpty]
  constructor
  · rintro ⟨number, ⟨numeral, bounded⟩, rfl⟩
    exact ⟨⟨number, numeral, rfl⟩, by simp; omega, by simp; omega⟩
  · rintro ⟨⟨number, numeral, rfl⟩, -, bounded⟩
    exact ⟨number, ⟨numeral, by omega⟩, rfl⟩

/-- Digits after a minus sign are read down to the least integer of the range. -/
theorem map_neg_eq_ok_iff :
    ((readMagnitude (-range.least).toNat .tooSmall 0 characters).map fun magnitude =>
        -(Int.ofNat magnitude)) = .ok value ↔
      (∃ number : Nat, Numeral characters number ∧ value = -number) ∧
        range.least ≤ value ∧ value ≤ range.greatest := by
  have least := Int.toNat_of_nonneg (Int.neg_nonneg_of_nonpos range.least_nonpositive)
  have greatest := range.greatest_nonnegative
  rw [map_eq_ok_iff]
  simp only [readMagnitude_eq_ok_iff_numeral notEmpty]
  constructor
  · rintro ⟨number, ⟨numeral, bounded⟩, rfl⟩
    exact ⟨⟨number, numeral, rfl⟩, by simp; omega, by simp; omega⟩
  · rintro ⟨⟨number, numeral, rfl⟩, bounded, -⟩
    exact ⟨number, ⟨numeral, by omega⟩, rfl⟩

end Signs

/-- Reading gives exactly the integers of the range that texts denote. -/
theorem readInteger_eq_ok_iff {range : IntegerRange} {characters : List Char} {value : Int} :
    readInteger range characters = .ok value ↔
      Denotes range characters value ∧ range.least ≤ value ∧ value ≤ range.greatest := by
  have nothing (number : Nat) : ¬ Numeral [] number := fun numeral => numeral.notEmpty rfl
  fun_cases readInteger range characters with
  | case1 =>
      simp only [reduceCtorEq, false_iff]
      rintro ⟨⟨numeral⟩, -⟩
      exact nothing _ numeral
  | case2 => simp [denotes_plus_iff, nothing]
  | case3 => simp [denotes_minus_iff, nothing]
  | case4 digits more =>
      rw [denotes_plus_iff]
      exact map_ofNat_eq_ok_iff more
  | case5 digits more signed =>
      rw [denotes_minus_iff]
      simp only [signed, true_and]
      exact map_neg_eq_ok_iff more
  | case6 digits more unsigned => simp [denotes_minus_iff, unsigned]
  | case7 characters notEmpty _ _ noPlus noMinus =>
      obtain ⟨first, rest, rfl⟩ := List.exists_cons_of_ne_nil notEmpty
      have unsigned : first ≠ '+' ∧ first ≠ '-' :=
        ⟨fun plus => noPlus rest (by rw [plus]), fun minus => noMinus rest (by rw [minus])⟩
      rw [denotes_iff_of_unsigned unsigned.1 unsigned.2]
      exact map_ofNat_eq_ok_iff notEmpty

end Precis.Text

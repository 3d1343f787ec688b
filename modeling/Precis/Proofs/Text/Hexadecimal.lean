import Precis.Text.Hexadecimal

/-!
Contract: hexadecimal digits and their values.

Owns that a value below sixteen is read back from its digit, and that no digit
has another value.
-/

namespace Precis.Text.Hexadecimal

theorem value?_digit {value : Nat} (small : value < 16) : value? (digit value) = some value := by
  have all : ∀ value < 16, value? (digit value) = some value := by decide
  exact all value small

theorem value?_lt
    {digit : Char}
    {value : Nat}
    (valued : value? digit = some value) :
    value < 16 := by
  have bound : ∀ {least greatest : Char}, least ≤ digit ∧ digit ≤ greatest →
      digit.toNat - least.toNat ≤ greatest.toNat - least.toNat :=
    fun between => Nat.sub_le_sub_right (UInt32.le_iff_toNat_le.mp between.2) _
  unfold value? at valued
  split at valued
  case isTrue between =>
    have bounded := bound between
    obtain rfl := Option.some.inj valued
    exact Nat.lt_of_le_of_lt bounded (by decide)
  case isFalse =>
    split at valued
    case isTrue between =>
      have bounded := bound between
      obtain rfl := Option.some.inj valued
      exact Nat.add_lt_of_lt_sub (Nat.lt_of_le_of_lt bounded (by decide))
    case isFalse =>
      rw [Option.ite_none_right_eq_some] at valued
      obtain ⟨between, same⟩ := valued
      have bounded := bound between
      obtain rfl := Option.some.inj same
      exact Nat.add_lt_of_lt_sub (Nat.lt_of_le_of_lt bounded (by decide))

end Precis.Text.Hexadecimal

/-!
Contract: results that may be failures.

Owns when a result that was made from another is a success: the other one was,
and what was made of its value is the success; and when a result keeps a value
once the cause of a failure is forgotten; and which failure a result has.
-/

namespace Precis

variable {ε α β : Type}

theorem bind_eq_ok_iff
    {result : Except ε α}
    {next : α → Except ε β}
    {final : β} :
    result >>= next = .ok final ↔ ∃ value, result = .ok value ∧ next value = .ok final := by
  cases result with
  | error cause => simp [bind, Except.bind]
  | ok value => simp [bind, Except.bind]

theorem map_eq_ok_iff
    {result : Except ε α}
    {change : α → β}
    {changed : β} :
    result.map change = .ok changed ↔ ∃ value, result = .ok value ∧ change value = changed := by
  cases result with
  | error cause => simp [Except.map]
  | ok value => simp [Except.map]

theorem toOption_eq_some_iff {result : Except ε α} {value : α} :
    result.toOption = some value ↔ result = .ok value := by
  cases result <;> simp [Except.toOption]

/-- The failure that a result has. -/
def causeOf : Except ε α → Option ε
  | .ok _ => none
  | .error cause => some cause

theorem causeOf_eq_some_iff {result : Except ε α} {cause : ε} :
    causeOf result = some cause ↔ result = .error cause := by
  cases result <;> simp [causeOf]

theorem causeOf_map (result : Except ε α) (change : α → β) :
    causeOf (result.map change) = causeOf result := by
  cases result <;> rfl

end Precis

import Precis.Json.Document

/-!
Contract: looking into generic JSON.

This module owns the questions that are asked of a value whose form is not
fixed: a member that is there, an integer, a text, the items of an array. A
null counts as nothing.
-/

namespace Precis.Json.Value

/-- A member that is there and not null. -/
def present? (value : Value) (name : String) : Option Value :=
  match value.member? name with
  | some .null => none
  | found => found

def integer? : Value → Option Int
  | .number (.integer integer) => some integer
  | _ => none

def string? : Value → Option String
  | .string content => some content
  | _ => none

/-- The items of an array; other values have none. -/
def items : Value → List Value
  | .array values => values
  | _ => []

def members : Value → List (String × Value)
  | .object entries => entries
  | _ => []

def integerAt? (value : Value) (name : String) : Option Int :=
  (value.present? name).bind integer?

/-- The natural number under a name, or a default. A negative number counts as zero. -/
def naturalAt (value : Value) (name : String) (default : Nat) : Nat :=
  ((value.integerAt? name).map Int.toNat).getD default

def stringAt? (value : Value) (name : String) : Option String :=
  (value.present? name).bind string?

/-- The text under a name, or the empty text. -/
def stringAt (value : Value) (name : String) : String :=
  (value.stringAt? name).getD ""

def itemsAt (value : Value) (name : String) : List Value :=
  ((value.present? name).map items).getD []

def isTrueAt (value : Value) (name : String) : Bool :=
  match value.present? name with
  | some (.bool flag) => flag
  | _ => false

end Precis.Json.Value

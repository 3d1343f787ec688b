import Precis.Summary.Error

/-!
Contract: what a model answers.

This module owns the answer to a generation call and the rule that picks the
summary out of it: the text of the first part of the first candidate.
-/

namespace Precis.Summary

/-- The answer of a model. A candidate is the texts of its parts, or `none`
where its content was withheld. `usage` is the number of tokens that the
provider says the exchange cost. -/
structure Reply where
  candidates : List (Option (List String))
  usage : Option UInt64
deriving DecidableEq, Repr

namespace Reply

def ofText (text : String) : Reply :=
  { candidates := [some [text]], usage := none }

/-- The text of the first part of the first candidate. -/
def firstText (reply : Reply) : Except Error String :=
  match reply.candidates with
  | some (text :: _) :: _ => .ok text
  | some [] :: _ => .error .noContentParts
  | _ => .error .noContent

end Reply

end Precis.Summary

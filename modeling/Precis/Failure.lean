import Precis.Settings.Error
import Precis.Summary.Error
import Precis.Service.Error

/-!
Contract: a failure of any part.

This module owns the union of the three kinds of failure, each with the words
that say which part it came from.
-/

namespace Precis

inductive Failure where
  | settings (fault : Settings.Fault)
  | summary (error : Summary.Error)
  | service (error : Service.Error)
deriving DecidableEq, Repr

/-- The wording of a failure, with the part it came from. -/
def Failure.message : Failure → String
  | .settings fault => "Configuration error: " ++ fault.message
  | .summary error => "LLM error: " ++ error.message
  | .service error => "Service error: " ++ error.message

end Precis

/-!
Contract: what can be wrong with settings.

This module owns the two faults of a setting, one that is required and missing
and one whose value is not acceptable, and their wording.
-/

namespace Precis.Settings

inductive Fault where
  | missing (name : String)
  | invalid (key message : String)
deriving DecidableEq, Repr

def Fault.message : Fault → String
  | .missing name => "Missing required environment variable: " ++ name
  | .invalid key message => "Invalid configuration value for " ++ key ++ ": " ++ message

end Precis.Settings

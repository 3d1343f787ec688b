/-!
Contract: what can go wrong with a dependent service.

This module owns the verdict of waiting for one service, the ways in which a
service can fail, and their wording.
-/

namespace Precis.Service

/-- The verdict on one service: whether it came to serve, and otherwise the
last thing that was seen of it. -/
structure Outcome where
  service : String
  healthy : Bool
  detail : Option String
deriving DecidableEq, Repr

def Outcome.message (outcome : Outcome) : String :=
  if outcome.healthy then outcome.service ++ ": serving"
  else
    outcome.service ++ ": health check timeout" ++
      (match outcome.detail with
        | some detail => " (" ++ detail ++ ")"
        | none => "")

inductive Error where
  | connectFailed (name address reason : String)
  | notConfigured (name : String)
  | closed (name : String)
  | callFailed (name method reason : String)
  | probeFailed (name reason : String)
  | unhealthy (failures : List Outcome)
deriving DecidableEq, Repr

def Error.message : Error → String
  | .connectFailed name address reason =>
      "Failed to connect to " ++ name ++ " server at " ++ address ++ ": " ++ reason
  | .notConfigured name => "Service " ++ name ++ " is not configured"
  | .closed name => "Connection to " ++ name ++ " is closed"
  | .callFailed name method reason => "Call " ++ method ++ " on " ++ name ++ " failed: " ++ reason
  | .probeFailed name reason => "Health probe for " ++ name ++ " failed: " ++ reason
  | .unhealthy failures =>
      "Health check failed: " ++ String.intercalate "; " (failures.map Outcome.message)

end Precis.Service

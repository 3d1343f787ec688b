import Precis.Json.Decoder

/-!
Contract: what a service says of its health.

This module owns the serving status and the report that carries it. Any status
that is not known by name is unknown, and unknown is not serving.
-/

namespace Precis.Service

open Json

/-- Whether a service serves, by its own account. -/
inductive ServingStatus where
  | serving
  | notServing
  | unknown
deriving DecidableEq, Repr

namespace ServingStatus

def name : ServingStatus → String
  | .serving => "SERVING"
  | .notServing => "NOT_SERVING"
  | .unknown => "UNKNOWN"

/-- What a message calls a status. -/
def description : ServingStatus → String
  | .serving => "status Serving"
  | .notServing => "status NotServing"
  | .unknown => "status Unknown"

def ofName (name : String) : ServingStatus :=
  if name = "SERVING" then .serving
  else if name = "NOT_SERVING" then .notServing
  else .unknown

def decode : Decoder ServingStatus :=
  decodeName fun name => .ok (ofName name)

def toValue (status : ServingStatus) : Value :=
  .string status.name

end ServingStatus

structure HealthReport where
  status : ServingStatus
deriving DecidableEq, Repr

namespace HealthReport

def fields : List (FieldRule (Option ServingStatus)) :=
  [.storing "status" ServingStatus.decode (fun status _ => some status) false]

def decode : Decoder HealthReport :=
  decodeRecord "HealthResponse" fields none fun draft =>
    (required "status" draft).map HealthReport.mk

def toValue (report : HealthReport) : Value :=
  .ofMembers [("status", report.status.toValue)]

end HealthReport

end Precis.Service

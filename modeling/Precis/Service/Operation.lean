import Precis.Service.Connection
import Precis.Service.Database
import Precis.Service.Task
import Precis.Summary.Wire

/-!
Contract: what the services are asked to do.

This module owns the three operations of the services, each with its payload
and the record that its answer holds, and the running of an operation over a
connection. An answer that does not hold the record is a failed call.
-/

namespace Precis.Service

variable [Url.DomainCoding]

/-- An operation of a service: its method, its payload and the reading of its answer. -/
structure Operation (α : Type) where
  method : String
  payload : Json.Value
  decode : Json.Decoder α

namespace Operation

def summarize (request : Summary.Request) : Operation Summary.Digest :=
  { method := "summarize", payload := request.toValue, decode := Summary.Digest.decode }

def createTask (task : Task) : Operation CreatedTask :=
  { method := "create_task", payload := task.toValue, decode := CreatedTask.decode }

def createDatabase (path : String) : Operation Unit :=
  { method := "create_if_not_exist"
    payload := databaseOrder .sqlite path
    decode := decodeEmpty }

/-- What the reply to an operation of a service means. -/
def conclude
    {α : Type}
    (operation : Operation α)
    (service : String)
    (reply : Except Error Json.Value) : Except Error α :=
  match reply with
  | .error error => .error error
  | .ok value =>
      match operation.decode value.toDocument with
      | .ok result => .ok result
      | .error failure => .error (.callFailed service operation.method failure.message)

def run
    {α : Type}
    (operation : Operation α)
    (held : Held Connection)
    (limit : Duration)
    (serve : Http.Request → Option Http.Handling) : Use α :=
  let use := Connection.call held limit serve operation.method operation.payload
  { sent := use.sent
    delay := use.delay
    result := operation.conclude held.connection.name use.result }

end Operation

end Precis.Service

import Precis.Http.Exchange
import Precis.Json.Reader
import Precis.Service.Address
import Precis.Service.Error
import Precis.Service.Health
import Precis.Time

/-!
Contract: connections to services over HTTP.

This module owns what a connection is, the two things that can be done with it,
probing and calling, and what every possible response means. Health lies at
`health` under the base URL and a method at its own name. A connection that was
closed sends nothing any more.
-/

namespace Precis.Service

variable [Url.DomainCoding]

structure Connection where
  name : String
  base : Url
deriving DecidableEq, Repr

/-- Connects a service to an address. Nothing is sent yet. -/
def Connection.connect (name address : String) : Except Error Connection :=
  match baseUrl address with
  | .error cause => .error (.connectFailed name address cause.message)
  | .ok base => .ok { name, base }

/-- A connection as it is held, with how often it has been closed. -/
structure Held (κ : Type) where
  connection : κ
  closings : Nat
deriving DecidableEq, Repr

namespace Held

def opened {κ : Type} (connection : κ) : Held κ :=
  { connection, closings := 0 }

def isClosed {κ : Type} (held : Held κ) : Bool :=
  held.closings != 0

/-- Closes a connection, which may be closed already. -/
def close {κ : Type} (held : Held κ) : Held κ :=
  { held with closings := held.closings + 1 }

end Held

/-- What was done with a connection: what was sent, how many nanoseconds it
took, and what came of it. -/
structure Use (α : Type) where
  sent : List Http.Request
  delay : Nat
  result : Except Error α

def Use.refused {α : Type} (error : Error) : Use α :=
  { sent := [], delay := 0, result := .error error }

namespace Connection

/-- The request that does something at a path under the base URL. `failed` says
what kind of failure a request is that cannot be made. -/
def request
    (connection : Connection)
    (failed : String → Error)
    (method : Http.Method)
    (path : String)
    (headers : List (String × String))
    (body : Option Json.Value) : Except Error Http.Request :=
  match connection.base.join path with
  | .error cause => .error (.callFailed connection.name path cause.message)
  | .ok url =>
      match Http.Request.make method url headers body with
      | .error cause => .error (failed cause.message)
      | .ok request => .ok request

/-- Sends a request, if it could be made, unless the connection is closed.
`serve` is what the server does with a request and `limit` the time that it may
take. -/
def send
    {α : Type}
    (held : Held Connection)
    (limit : Duration)
    (serve : Http.Request → Option Http.Handling)
    (request : Except Error Http.Request)
    (failed : String → Error)
    (read : Http.Response → Except Error α) : Use α :=
  if held.isClosed then .refused (.closed held.connection.name)
  else
    match request with
    | .error error => .refused error
    | .ok request =>
        let handling := Http.Handling.within limit.nanoseconds (serve request)
        { sent := [request]
          delay := handling.delay
          result :=
            match handling.response with
            | none => .error (failed (Http.Error.message (.notAnswered request.url)))
            | some response => read response }

def healthPath : String := "health"

def probeFailed (connection : Connection) (reason : String) : Error :=
  .probeFailed connection.name reason

def callFailed (connection : Connection) (method reason : String) : Error :=
  .callFailed connection.name method reason

def healthReport? (response : Http.Response) : Option HealthReport :=
  (response.body.bind Json.Document.ofBytes?).bind fun document =>
    (HealthReport.decode document).toOption

def reply? (response : Http.Response) : Option Json.Value :=
  (response.body.bind Json.Document.ofBytes?).bind Json.Document.toValue?

def readHealth (connection : Connection) (response : Http.Response) :
    Except Error ServingStatus :=
  if !Http.isSuccess response.status then
    .error (connection.probeFailed (Http.statusText response.status))
  else
    match healthReport? response with
    | some report => .ok report.status
    | none =>
        .error (connection.probeFailed
          ("invalid health response: " ++ Http.Error.message .notReadable))

def readReply (connection : Connection) (method : String) (response : Http.Response) :
    Except Error Json.Value :=
  if !Http.isSuccess response.status then
    .error (connection.callFailed method
      (Http.statusText response.status ++ ": " ++ response.text?.getD ""))
  else
    match reply? response with
    | some value => .ok value
    | none =>
        .error (connection.callFailed method
          ("invalid response: " ++ Http.Error.message .notReadable))

def healthRequest (connection : Connection) : Except Error Http.Request :=
  connection.request connection.probeFailed .get healthPath [] none

def callRequest
    (connection : Connection)
    (method : String)
    (payload : Json.Value) : Except Error Http.Request :=
  connection.request (connection.callFailed method) .post method [Http.jsonHeader] (some payload)

def check
    (held : Held Connection)
    (limit : Duration)
    (serve : Http.Request → Option Http.Handling) : Use ServingStatus :=
  let connection := held.connection
  send held limit serve connection.healthRequest connection.probeFailed connection.readHealth

def call
    (held : Held Connection)
    (limit : Duration)
    (serve : Http.Request → Option Http.Handling)
    (method : String)
    (payload : Json.Value) : Use Json.Value :=
  let connection := held.connection
  send held limit serve (connection.callRequest method payload) (connection.callFailed method)
    (connection.readReply method)

end Connection

end Precis.Service

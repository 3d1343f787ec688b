import Precis.Command.Report
import Precis.Service.Operation
import Precis.Service.Readiness
import Precis.Settings.Gateway

/-!
Contract: the command that starts the gateway.

This module owns the start of the gateway: the settings, the connections, the
wait for all services to serve, and the order to make the database, which is
sent once and last. A gateway that is ready waits until it is interrupted, and
then closes its connections; a gateway that fails on the way closes them too.
-/

namespace Precis.Command

open Service

variable [Url.DomainCoding]

/-- The server of each service. It is given the earlier requests to that service alone. -/
abbrev Servers := (service : String) → Http.Server

structure SentTo where
  service : String
  sent : Http.Sent

/-- What a run of the gateway did: its report, everything that it sent in the
order of time, its connections as it left them, whether it became ready, and
the nanoseconds that passed until then or until it failed. -/
structure GatewayRun where
  report : Report
  sent : List SentTo
  pool : Pool Connection
  ready : Bool
  elapsed : Nat

def gatewayVersion : String := "0.1.0"

def banner (settings : Settings.GatewaySettings) : String :=
  "📬 inbox-todo v" ++ gatewayVersion ++ "\n" ++
    String.join (settings.endpoints.map fun endpoint =>
      "   " ++ endpoint.name ++ ": " ++ endpoint.address ++ "\n") ++
    "   Database: " ++ settings.databasePath ++ "\n"

def readyText : String := "   Ready. Press Ctrl-C to stop.\n\n"

def databaseService : String := "database"

/-- What the connections to the services are used for, in the order of the endpoints. -/
def clientKinds : List ClientKind := [.summary, .todo, .database]

def serviceConfigs (settings : Settings.GatewaySettings) : List ServiceConfig :=
  List.zipWith (fun endpoint kind =>
    { name := endpoint.name, address := endpoint.address, kind }) settings.endpoints clientKinds

/-- The probe of a service by the gateway that has the given number, counted from zero. -/
def gatewayProbe
    (settings : Settings.GatewaySettings)
    (servers : Servers)
    (service : String)
    (held : Held Connection)
    (index : Nat) : Use ServingStatus :=
  Connection.check held settings.healthTimeout fun request =>
    servers service (List.replicate index request) request

def gatewayScript
    (settings : Settings.GatewaySettings)
    (servers : Servers)
    (service : String)
    (held : Held Connection) : ProbeScript :=
  fun index =>
    let use := gatewayProbe settings servers service held index
    { duration := some use.delay, answer := use.result }

/-- What the probes of a service sent that started at the given moments. -/
def sentByProbes
    (settings : Settings.GatewaySettings)
    (servers : Servers)
    (service : String)
    (held : Held Connection)
    (starts : List Nat) : List SentTo :=
  starts.zipIdx.flatMap fun (moment, index) =>
    (gatewayProbe settings servers service held index).sent.map fun request =>
      { service, sent := { moment, request } }

/-- Requests in the order of time. -/
def inOrder (sent : List SentTo) : List SentTo :=
  sent.mergeSort fun first second => first.sent.moment ≤ second.sent.moment

/-- The requests that were sent to a service, newest first. -/
def requestsTo (service : String) (sent : List SentTo) : List Http.Request :=
  ((sent.filter fun each => each.service = service).map fun each => each.sent.request).reverse

/-- The order to make the database, after what has been sent so far. -/
def orderDatabase
    (settings : Settings.GatewaySettings)
    (servers : Servers)
    (pool : Pool Connection)
    (sent : List SentTo) : Use Unit :=
  match pool.requireClient databaseService .database with
  | .error error => .refused error
  | .ok handle =>
      match pool.held? handle with
      | none => .refused (.notConfigured databaseService)
      | some held =>
          (Operation.createDatabase settings.databasePath).run held settings.healthTimeout
            (servers databaseService (requestsTo databaseService sent))

def runConnected
    (settings : Settings.GatewaySettings)
    (servers : Servers)
    (pool : Pool Connection)
    (began : ClockReading) : GatewayRun :=
  let gate := Gate.ofInterval settings.healthInterval
  let watched := pool.watched Connection.name (gatewayScript settings servers)
  let waits := gate.waits settings.healthTimeout watched began
  let verdict := gate.await settings.healthTimeout watched began
  let probed := inOrder (List.zipWith (fun found wait =>
    sentByProbes settings servers found.1 found.2 wait.starts) pool.connections waits).flatten
  match verdict.result with
  | .error error =>
      { report := .failed (banner settings)
          (failureTextIn "services did not become healthy" error.message)
        sent := probed
        pool := pool.close
        ready := false
        elapsed := verdict.elapsed }
  | .ok () =>
      let use := orderDatabase settings servers pool probed
      let sent := probed ++ use.sent.map fun request =>
        { service := databaseService, sent := { moment := verdict.elapsed, request } }
      let elapsed := verdict.elapsed + use.delay
      match use.result with
      | .error error =>
          { report := .failed (banner settings)
              (failureTextIn "failed to set up database" error.message)
            sent
            pool := pool.close
            ready := false
            elapsed }
      | .ok () =>
          { report := .succeeded "" (banner settings ++ readyText)
            sent
            pool := pool.close
            ready := true
            elapsed }

/-- Runs the gateway until it is interrupted. -/
def gateway
    (environment : Settings.Environment)
    (servers : Servers)
    (began : ClockReading := .zero) : GatewayRun :=
  match Settings.GatewaySettings.ofEnvironment environment with
  | .error fault =>
      { report := .failed "" (failureText fault.message)
        sent := []
        pool := .empty
        ready := false
        elapsed := 0 }
  | .ok settings =>
      let built := Pool.build httpConnector (serviceConfigs settings)
      match built.failure with
      | some error =>
          { report := .failed (banner settings) (failureText error.message)
            sent := []
            pool := built.pool
            ready := false
            elapsed := 0 }
      | none => runConnected settings servers built.pool began

end Precis.Command

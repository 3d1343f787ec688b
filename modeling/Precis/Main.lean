import Precis.Command.Gateway
import Precis.Command.Summarize
import Precis.Http.Message
import Std.Async.DNS
import Std.Async.Signal
import Std.Async.TCP
import Std.Time.DateTime.Timestamp

/-!
Contract: the program.

This module owns the outer layer: the environment, the standard streams, the
connections, the interrupt, and the time that really passes. What is sent and
what is written is decided by the commands. A command is evaluated against what
the servers have done so far; requests that are due by then are sent, and once
more is known it is evaluated again. A run holds when the time that it takes
has passed. Connections are not encrypted, so only `http` is spoken.
-/

namespace Precis.Main

open Std.Async

/-! ### Connections -/

/-- The response that arrives on a connection, after the bytes that have arrived already. -/
partial def receive
    (socket : TCP.Socket.Client)
    (received : List UInt8) : Async (Option Http.Response) := do
  let more ← socket.recv? 65536
  let bytes := received ++ (more.map (·.toList)).getD []
  match Http.Response.read more.isNone bytes with
  | .complete response => return some response
  | .malformed => return none
  | .incomplete => if more.isNone then return none else receive socket bytes

/-- The response of the first address that can be connected to. -/
def exchangeAt
    (port : UInt16)
    (message : ByteArray) : List Std.Net.IPAddr → Async (Option Http.Response)
  | [] => return none
  | address :: others => do
      let socket ← TCP.Socket.Client.mk
      let endpoint : Std.Net.SocketAddress :=
        match address with
        | .v4 address => .v4 { addr := address, port }
        | .v6 address => .v6 { addr := address, port }
      let connected ← try socket.connect endpoint; pure true catch _ => pure false
      if connected then
        socket.send message
        receive socket []
      else exchangeAt port message others

def exchange (request : Http.Request) : Async (Option Http.Response) := do
  if request.url.scheme ≠ "http" then return none
  let name := ((request.url.host.map Url.Host.text).getD "").toList.filter fun character =>
    character ≠ '[' ∧ character ≠ ']'
  let port := request.url.port.getD 80
  let addresses ← DNS.getAddrInfo (String.ofList name) (toString port)
  exchangeAt (UInt16.ofNat port) ⟨request.bytes.toArray⟩ addresses.toList

/-- Sends a request in the background. A request that fails has no response. -/
def begin (request : Http.Request) : IO (AsyncTask (Option Http.Response)) :=
  (try exchange request catch _ => pure none).toIO

/-! ### Runs -/

/-- What a server did with the request to it that has the given number. -/
structure Answered where
  service : String
  number : Nat
  handling : Http.Handling

structure Pending where
  service : String
  number : Nat
  moment : Nat
  response : AsyncTask (Option Http.Response)

/-- The servers, as far as is known what they did. -/
def serversOf (answered : List Answered) : Command.Servers := fun service earlier _ =>
  (answered.find? fun each => each.service = service ∧ each.number = earlier.length).map
    Answered.handling

/-- What a command does as far as is known what the servers did. -/
structure Run where
  report : Command.Report
  sent : List Command.SentTo
  elapsed : Nat

/-- A command whose environment and input are known: what it does, given the
moment of an interrupt and what the servers did. -/
abbrev Plan := (interrupt : Option Nat) → List Answered → Run

/-- Everything that was sent, each with its number among what its service was sent. -/
def numbered (sent : List Command.SentTo) : List (Nat × Command.SentTo) :=
  sent.zipIdx.map fun (each, index) =>
    ((sent.take index).countP fun other => other.service = each.service, each)

structure Progress where
  interrupt : Option Nat
  answered : List Answered
  pending : List Pending

def Progress.hasBegun (progress : Progress) (service : String) (number : Nat) : Bool :=
  (progress.answered.any fun each => each.service = service ∧ each.number = number) ||
    progress.pending.any fun each => each.service = service ∧ each.number = number

def Progress.observe
    (progress : Progress)
    (now : Nat)
    (isInterrupted : IO Bool) : IO Progress := do
  let mut answered := progress.answered
  let mut pending := []
  for each in progress.pending do
    if ← IO.hasFinished each.response then
      let response := each.response.get.toOption.join
      answered := { service := each.service
                    number := each.number
                    handling := { delay := now - each.moment, response } } :: answered
    else pending := each :: pending
  let interrupted ← if progress.interrupt.isNone then isInterrupted else pure false
  return { interrupt := if interrupted then some now else progress.interrupt, answered, pending }

def Progress.advance (progress : Progress) (now : Nat) (run : Run) : IO Progress := do
  let mut pending := progress.pending
  for (number, each) in numbered run.sent do
    if each.sent.moment ≤ now ∧ !progress.hasBegun each.service number then
      pending := { service := each.service
                   number
                   moment := each.sent.moment
                   response := ← begin each.sent.request } :: pending
  return { progress with pending }

/-- Follows a plan until the time that its run takes has passed. -/
partial def follow
    (plan : Plan)
    (start : Nat)
    (isInterrupted : IO Bool)
    (progress : Progress) : IO Command.Report := do
  let now := (← IO.monoNanosNow) - start
  let observed ← progress.observe now isInterrupted
  let run := plan observed.interrupt observed.answered
  let advanced ← observed.advance now run
  if run.elapsed ≤ now ∧ advanced.pending.length = observed.pending.length then
    return run.report
  IO.sleep 1
  follow plan start isInterrupted advanced

def carryOut (plan : Plan) (isInterrupted : IO Bool) : IO Command.Report := do
  follow plan (← IO.monoNanosNow) isInterrupted { interrupt := none, answered := [], pending := [] }

/-! ### Commands -/

def environment : IO Settings.Environment := do
  return .ofBlock (← IO.FS.readBinFile "/proc/self/environ").toList

def present : IO Instant := do
  let timestamp ← Std.Time.Timestamp.now
  return (Instant.ofNanoseconds? timestamp.toNanosecondsSinceUnixEpoch.toInt).getD .latest

/-- Writes what a command leaves behind, and gives its exit code. -/
def deliver (report : Command.Report) : IO UInt32 := do
  (← IO.getStdout).putStr report.output
  (← IO.getStderr).putStr report.diagnostics
  return report.exitCode.toUInt32

/-- Summarizes the mail on the standard input. An interrupt cancels the request. -/
def runSummarize : IO UInt32 := do
  let environment ← environment
  let input ←
    match Command.summarizeSettings environment with
    | .ok _ => (← IO.getStdin).readBinToEnd
    | .error _ => pure .empty
  let clock := Summary.clockFrom (← present)
  let plan : Plan := fun interrupt answered =>
    let run := Command.summarize environment input.toList (serversOf answered "") clock
      fun _ => interrupt
    { report := run.report
      sent := run.sent.map fun sent => { service := "", sent }
      elapsed := run.elapsed }
  let waiter ← Signal.Waiter.mk .sigint false
  let signal ← waiter.wait
  let report ← carryOut plan (IO.hasFinished signal)
  waiter.stop
  deliver report

/-- Starts the gateway, and once it is ready waits for an interrupt. -/
def runGateway : IO UInt32 := do
  let environment ← environment
  let began := (Service.ClockReading.ofNanoseconds? (← IO.monoNanosNow)).getD .zero
  let plan : Plan := fun _ answered =>
    let run := Command.gateway environment (serversOf answered) began
    { report := run.report, sent := run.sent, elapsed := run.elapsed }
  let report ← carryOut plan (pure false)
  let exitCode ← deliver report
  if exitCode = 0 then
    let waiter ← Signal.Waiter.mk .sigint false
    discard (IO.wait (← waiter.wait))
  return exitCode

end Precis.Main

def main (arguments : List String) : IO UInt32 := do
  match arguments with
  | ["summarize"] => Precis.Main.runSummarize
  | ["gateway"] => Precis.Main.runGateway
  | _ =>
      IO.eprintln "usage: precis (summarize | gateway)"
      return 2

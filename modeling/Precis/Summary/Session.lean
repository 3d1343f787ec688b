import Precis.Summary.Reply
import Precis.Model.Catalog

/-!
Contract: the surroundings of a summarizer and the record of what it did.

This module owns the two sides between which a request runs. `Surroundings` is
everything that the summarizer does not decide: whether a backend handle can be
made, what each call answers and how long it takes, and what the clock of the
ledger shows. Each answer may depend on everything that happened before. A
`Session` is what one summarizer carries from request to request, with the log
of every event, newest first. Time is counted in nanoseconds since the
summarizer was made, and passes only while something is waited for.
-/

namespace Precis.Summary

/-- A moment, in nanoseconds since the summarizer was made. -/
abbrev Moment := Nat

/-- One call to a model. An abandoned call has no answer. -/
structure Call (α : Type) where
  model : String
  input : String
  started : Moment
  ended : Moment
  answer : Option (Except Error α)

inductive Event where
  | create (credential : String) (answer : Except Error Unit)
  | count (call : Call UInt64)
  | check (now : Instant) (cost : UInt64) (verdict : Except Usage.Exceeded Unit)
  | generate (call : Call Reply)
  | record (now : Instant) (cost : UInt64)
  | pause (started ended : Moment)

/-- Everything that happened so far, newest first. -/
abbrev Log := List Event

/-- The moment of the newest event that took time. -/
def Log.moment : Log → Moment
  | [] => 0
  | .count call :: _ => call.ended
  | .generate call :: _ => call.ended
  | .pause _ ended :: _ => ended
  | _ :: before => Log.moment before

/-- A clock that shows a given point of the calendar at the start, goes on as
time passes, and moves by another microsecond with every event. It stops at the
end of the calendar. -/
def clockFrom (start : Instant) (log : Log) : Instant :=
  (Instant.ofNanoseconds? (start.nanoseconds + Log.moment log + 1000 * log.length)).getD
    Instant.latest

structure Answer (α : Type) where
  delay : Nat
  result : Except Error α

/-- What a summarizer does not decide. Calls are given the name of the model and
the input, and the log as it stands when they start. -/
structure Surroundings where
  create : Log → (credential : String) → Except Error Unit
  count : Log → Moment → (model input : String) → Answer UInt64
  generate : Log → Moment → (model input : String) → Answer Reply
  clock : Log → Instant

/-- When the present request is cancelled, as far as the log tells: `none` if it
is not. Once the moment has come, the next look at it ends the request. -/
abbrev Cancellation := Log → Option Moment

def Cancellation.never : Cancellation := fun _ => none

structure Session where
  ledger : Usage.Ledger
  connected : Bool
  now : Moment
  log : Log

namespace Session

def start (ledger : Usage.Ledger) : Session :=
  { ledger, connected := false, now := 0, log := [] }

def note (session : Session) (event : Event) : Session :=
  { session with log := event :: session.log }

def isCancelledBy (session : Session) (cancellation : Cancellation) (moment : Moment) : Bool :=
  match cancellation session.log with
  | some cancelled => decide (cancelled ≤ moment)
  | none => false

/-- The moment at which a wait is broken off, which is not before it began. -/
def breakOff (session : Session) (cancellation : Cancellation) : Moment :=
  max session.now ((cancellation session.log).getD session.now)

end Session

/-- How a part of a request ended: cancelled, or with a result. -/
inductive Ended (α : Type) where
  | cancelled
  | finished (result : Except Error α)

/-- A call of one kind: starts it, waits for its answer, and logs it. A call that
takes no time is not waited for, so a cancellation cannot cut it off. -/
def Session.call
    {α : Type}
    (session : Session)
    (cancellation : Cancellation)
    (event : Call α → Event)
    (answer : Log → Moment → (model input : String) → Answer α)
    (model input : String) : Ended α × Session :=
  let given := answer session.log session.now model input
  let pending : Call α :=
    { model, input, started := session.now, ended := session.now, answer := none }
  let waiting := session.note (event pending)
  let arrival := session.now + given.delay
  if given.delay ≠ 0 ∧ waiting.isCancelledBy cancellation arrival then
    let moment := waiting.breakOff cancellation
    (.cancelled, { session with
      now := moment
      log := event { pending with ended := moment } :: session.log })
  else
    (.finished given.result, { session with
      now := arrival
      log := event { pending with ended := arrival, answer := some given.result } :: session.log })

/-- A pause of the given length. A cancellation cuts it off, also at its very end. -/
def Session.pause
    (session : Session)
    (cancellation : Cancellation)
    (length : Duration) : Ended Unit × Session :=
  let finish := session.now + length.nanoseconds
  if session.isCancelledBy cancellation finish then
    let moment := session.breakOff cancellation
    (.cancelled, { session with now := moment, log := .pause session.now moment :: session.log })
  else
    (.finished (.ok ()),
      { session with now := finish, log := .pause session.now finish :: session.log })

end Precis.Summary

import Precis.Service.Pool

/-!
Contract: waiting for services to serve.

This module owns the gate that probes every service until it serves or a common
deadline has passed. The services are probed side by side and none of them
delays another. A probe is due at once, and then once in an interval; the next
one waits for the end of the one before. Where a probe took so long that the
next one is late by more than the tolerance, the schedule starts anew from
there. At the deadline itself no probe starts, but one that ends there counts.

Time is in nanoseconds since the wait began. Timers are exact, however far off
they ring, as they are in virtual time; a runtime may promise that for a range
of a few years only, and then what is said here of a deadline beyond that range
is said of virtual time alone. Which deadlines can be told depends on what the
clock reads when a wait begins; nothing else does.
-/

namespace Precis.Service

/-- One probe: the nanoseconds that it takes, or `none` if it never ends, and
what comes of it. -/
structure Probe where
  duration : Option Nat
  answer : Except Error ServingStatus

/-- The behaviour of a service: what each of its probes does, counted from zero. -/
abbrev ProbeScript := Nat → Probe

structure Gate where
  interval : Duration
  one_millisecond_le : 1000000 ≤ interval.nanoseconds

namespace Gate

/-- A gate that probes once in an interval, or once in a millisecond if that is longer. -/
def ofInterval (interval : Duration) : Gate :=
  { interval := ⟨max 1000000 interval.nanoseconds⟩
    one_millisecond_le := Nat.le_max_left _ _ }

/-- The gate that probes twice in a second. -/
def standard : Gate :=
  ofInterval (.ofMilliseconds 500)

end Gate

/-- By how much a probe may be late without moving the ones after it. -/
def tolerance : Nat := 5000000

/-- When the next probe is due after one that was due at `due` and started at `started`. -/
def nextDue (interval : Nat) (due started : Nat) : Nat :=
  if started ≤ due + tolerance then due + interval else started + interval

theorem le_nextDue {interval due started : Nat} :
    due + interval ≤ nextDue interval due started ∨
      started + interval ≤ nextDue interval due started := by
  unfold nextDue
  split
  · exact Or.inl (Nat.le_refl _)
  · exact Or.inr (Nat.le_refl _)

theorem lt_nextDue {interval due started : Nat} (positive : 0 < interval) (late : due ≤ started) :
    due < nextDue interval due started := by
  unfold nextDue
  split <;> omega

/-- What waiting for one service came to: when it ended, the moment at which
each probe started, whether the service came to serve, and the last thing that
was seen of it otherwise. -/
structure Wait where
  finish : Nat
  starts : List Nat
  healthy : Bool
  detail : Option String
deriving DecidableEq, Repr

/-- The detail where a probe was started and none ever ended. -/
def noProbeEnded : String := "probe did not complete"

def probeDetail : Except Error ServingStatus → String
  | .ok status => status.description
  | .error error => error.message

/-- Probes a service from `now` on, where the next probe is due at `due` and is
the probe of that index. `seen` is the last thing that was seen. -/
def pollFrom
    (interval : Nat)
    (positive : 0 < interval)
    (deadline : Nat)
    (script : ProbeScript)
    (index now due : Nat)
    (starts : List Nat)
    (seen : Option String) : Wait :=
  let started := max now due
  if _ : deadline ≤ started then
    { finish := deadline, starts := starts.reverse, healthy := false, detail := seen }
  else
    let probe := script index
    match probe.duration with
    | none =>
        { finish := deadline
          starts := (started :: starts).reverse
          healthy := false
          detail := some (seen.getD noProbeEnded) }
    | some duration =>
        let finished := started + duration
        if deadline < finished then
          { finish := deadline
            starts := (started :: starts).reverse
            healthy := false
            detail := some (seen.getD noProbeEnded) }
        else
          match probe.answer with
          | .ok .serving =>
              { finish := finished
                starts := (started :: starts).reverse
                healthy := true
                detail := none }
          | answer =>
              pollFrom interval positive deadline script (index + 1) finished
                (nextDue interval due started) (started :: starts) (some (probeDetail answer))
termination_by deadline - due
decreasing_by
  have late : due ≤ max now due := Nat.le_max_right _ _
  have later : due < nextDue interval due (max now due) := lt_nextDue positive late
  omega

/-- The end of what a clock can tell, in its nanoseconds: 2^63 seconds. -/
def endOfClock : Nat := 9223372036854775808 * 1000000000

/-- The time until the deadline of a wait whose end cannot be told: thirty years of 365 days. -/
def farFuture : Duration := .ofSeconds (86400 * 365 * 30)

/-- What the clock reads when a wait begins. The far future can be told from there. -/
structure ClockReading where
  nanoseconds : Nat
  farFuture_lt : nanoseconds + farFuture.nanoseconds < endOfClock

namespace ClockReading

def zero : ClockReading := ⟨0, by decide⟩

def ofNanoseconds? (nanoseconds : Nat) : Option ClockReading :=
  if within : nanoseconds + farFuture.nanoseconds < endOfClock then some ⟨nanoseconds, within⟩
  else none

/-- The clock can tell the end of a wait. -/
def Tells (began : ClockReading) (timeout : Duration) : Prop :=
  began.nanoseconds + timeout.nanoseconds < endOfClock

instance (began : ClockReading) (timeout : Duration) : Decidable (began.Tells timeout) :=
  inferInstanceAs (Decidable (_ < _))

def deadline (began : ClockReading) (timeout : Duration) : Nat :=
  if began.Tells timeout then timeout.nanoseconds else farFuture.nanoseconds

end ClockReading

def Gate.poll (gate : Gate) (deadline : Nat) (script : ProbeScript) : Wait :=
  pollFrom gate.interval.nanoseconds (Nat.lt_of_lt_of_le (by decide) gate.one_millisecond_le)
    deadline script 0 0 0 [] none

structure Watched where
  service : String
  script : ProbeScript

/-- The services of a pool in the order of their names. The scripts are given
by the names in the pool; a verdict names a service as its connection does. -/
def Pool.watched
    {κ : Type}
    (pool : Pool κ)
    (serviceOf : κ → String)
    (scriptOf : (name : String) → Held κ → ProbeScript) : List Watched :=
  pool.connections.map fun found =>
    { service := serviceOf found.2.connection, script := scriptOf found.1 found.2 }

def Gate.waits
    (gate : Gate)
    (timeout : Duration)
    (watched : List Watched)
    (began : ClockReading := .zero) : List Wait :=
  watched.map fun each => gate.poll (began.deadline timeout) each.script

def Watched.outcome (watched : Watched) (wait : Wait) : Outcome :=
  { service := watched.service, healthy := wait.healthy, detail := wait.detail }

/-- How a wait for services ended, and after how many nanoseconds. -/
structure Verdict where
  elapsed : Nat
  result : Except Error Unit

/-- Waits for all services. Without any there is nothing to wait for. -/
def Gate.await
    (gate : Gate)
    (timeout : Duration)
    (watched : List Watched)
    (began : ClockReading := .zero) : Verdict :=
  let waits := gate.waits timeout watched began
  let outcomes := List.zipWith Watched.outcome watched waits
  let failures := outcomes.filter fun outcome => !outcome.healthy
  { elapsed := (waits.map Wait.finish).foldl max 0
    result := if failures.isEmpty then .ok () else .error (.unhealthy failures) }

end Precis.Service

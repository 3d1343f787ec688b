import Mathlib.Algebra.Order.BigOperators.Group.Finset
import Mathlib.Data.Finset.Max
import Mathlib.Data.Fintype.BigOperators
import Mathlib.Logic.Relation
import Precis.Proofs.Service.Schedule

/-!
Contract: services that are waited for side by side.

This module owns the steps of a wait in which every service has a poller of its
own and all share nothing but the clock. A step belongs to one poller, whose
timer rings first of all, or along with others, and moves the clock to that
moment. Whatever the order of the steps, each poller comes to the wait that it
would come to alone, and the clock stops where the last of them ends.
-/

namespace Precis.Service

/-- The moment at which a probe that has started ends or is given up. -/
def Probe.endBy (probe : Probe) (deadline started : Nat) : Nat :=
  match probe.duration with
  | none => deadline
  | some duration => min deadline (started + duration)

section EndBy

variable {probe : Probe} {deadline started : Nat}

theorem Probe.endBy_of_unfinished
    (unfinished : ∀ duration, probe.duration = some duration → deadline < started + duration) :
    probe.endBy deadline started = deadline := by
  unfold endBy
  split
  case h_1 => rfl
  case h_2 duration ends => exact Nat.min_eq_left (unfinished duration ends).le

theorem Probe.endBy_of_inTime
    {duration : Nat}
    (ends : probe.duration = some duration)
    (inTime : started + duration ≤ deadline) :
    probe.endBy deadline started = started + duration := by
  unfold endBy
  rw [ends]
  exact Nat.min_eq_right inTime

theorem Probe.le_endBy (early : started ≤ deadline) : started ≤ probe.endBy deadline started := by
  unfold endBy
  split
  · exact early
  · exact Nat.le_min.mpr ⟨early, Nat.le_add_right _ _⟩

end EndBy

/-- Where the poller of one service stands: it waits for the next probe to be
due, or for a probe to end, or it has ended. -/
inductive Poller (deadline : Nat) where
  | resting (index free due : Nat) (starts : List Nat) (seen : Option String)
  | probing
      (index started due : Nat)
      (dueLe : due ≤ started)
      (early : started < deadline)
      (starts : List Nat)
      (seen : Option String)
  | ended (wait : Wait)

namespace Poller

variable {deadline : Nat}

def fresh : Poller deadline := .resting 0 0 0 [] none

/-- The moment at which the timer of a poller rings. -/
def alarm? (script : ProbeScript) : Poller deadline → Option Nat
  | .resting _ free due _ _ => some (min deadline (max free due))
  | .probing index started _ _ _ _ _ => some ((script index).endBy deadline started)
  | .ended _ => none

/-- The wait that a poller will come to. -/
def outlook
    (interval : Nat)
    (positive : 0 < interval)
    (script : ProbeScript) : Poller deadline → Wait
  | .resting index free due starts seen =>
      pollFrom interval positive deadline script index free due starts seen
  | .probing index started due _ _ starts seen =>
      pollFrom interval positive deadline script index started due starts seen
  | .ended wait => wait

end Poller

/-- What a poller does when its timer rings. The deadline goes before a probe
that is due, and a probe that ends goes before the deadline. -/
inductive Wakes (interval : Nat) {deadline : Nat} (script : ProbeScript) :
    (poller : Poller deadline) → (moment : Nat) → (next : Poller deadline) → Prop
  | close {index free due : Nat} {starts : List Nat} {seen : Option String}
      (late : deadline ≤ max free due) :
      Wakes interval script (.resting index free due starts seen) deadline
        (.ended
          { finish := deadline, starts := starts.reverse, healthy := false, detail := seen })
  | start {index free due started : Nat} {starts : List Nat} {seen : Option String}
      (startedEq : started = max free due)
      (dueLe : due ≤ started)
      (early : started < deadline) :
      Wakes interval script (.resting index free due starts seen) started
        (.probing index started due dueLe early starts seen)
  | abandon {index started due : Nat} {dueLe : due ≤ started} {early : started < deadline}
      {starts : List Nat} {seen : Option String}
      (unfinished : ∀ duration, (script index).duration = some duration →
        deadline < started + duration) :
      Wakes interval script (.probing index started due dueLe early starts seen) deadline
        (.ended
          { finish := deadline
            starts := (started :: starts).reverse
            healthy := false
            detail := some (seen.getD noProbeEnded) })
  | serve {index started due duration : Nat} {dueLe : due ≤ started} {early : started < deadline}
      {starts : List Nat} {seen : Option String}
      (ends : (script index).duration = some duration)
      (inTime : started + duration ≤ deadline)
      (serving : (script index).answer = .ok .serving) :
      Wakes interval script (.probing index started due dueLe early starts seen)
        (started + duration)
        (.ended
          { finish := started + duration
            starts := (started :: starts).reverse
            healthy := true
            detail := none })
  | retry {index started due duration : Nat} {dueLe : due ≤ started} {early : started < deadline}
      {starts : List Nat} {seen : Option String}
      (ends : (script index).duration = some duration)
      (inTime : started + duration ≤ deadline)
      (notServing : (script index).answer ≠ .ok .serving) :
      Wakes interval script (.probing index started due dueLe early starts seen)
        (started + duration)
        (.resting (index + 1) (started + duration) (nextDue interval due started)
          (started :: starts) (some (probeDetail (script index).answer)))

namespace Wakes

variable {interval : Nat} {positive : 0 < interval} {deadline : Nat} {script : ProbeScript}
variable {poller next : Poller deadline} {moment : Nat}

theorem alarm_eq (wakes : Wakes interval script poller moment next) :
    poller.alarm? script = some moment := by
  cases wakes with
  | close late => exact congrArg some (Nat.min_eq_left late)
  | start startedEq _ early =>
      subst startedEq
      exact congrArg some (Nat.min_eq_right early.le)
  | abandon unfinished => exact congrArg some (Probe.endBy_of_unfinished unfinished)
  | serve ends inTime => exact congrArg some (Probe.endBy_of_inTime ends inTime)
  | retry ends inTime => exact congrArg some (Probe.endBy_of_inTime ends inTime)

theorem le_next_alarm
    (wakes : Wakes interval script poller moment next)
    {later : Nat}
    (rings : next.alarm? script = some later) :
    moment ≤ later := by
  cases wakes with
  | close => cases rings
  | start _ _ early => exact (Option.some.inj rings) ▸ Probe.le_endBy early.le
  | abandon => cases rings
  | serve => cases rings
  | retry _ inTime =>
      exact (Option.some.inj rings) ▸ Nat.le_min.mpr ⟨inTime, Nat.le_max_left _ _⟩

theorem finish_eq
    (wakes : Wakes interval script poller moment next)
    {wait : Wait}
    (ended : next = .ended wait) :
    wait.finish = moment := by
  cases wakes with
  | close => cases ended; rfl
  | start => cases ended
  | abandon => cases ended; rfl
  | serve => cases ended; rfl
  | retry => cases ended

/-- A step does not change what a poller will come to. -/
theorem outlook_eq (wakes : Wakes interval script poller moment next) :
    next.outlook interval positive script = poller.outlook interval positive script := by
  cases wakes with
  | close late => exact (pollFrom_of_late late).symm
  | start startedEq dueLe early => exact pollFrom_started startedEq.symm
  | @abandon _ _ _ dueLe early _ _ unfinished =>
      exact (pollFrom_of_unfinished (Nat.max_eq_left dueLe) early unfinished).symm
  | @serve _ _ _ _ dueLe early _ _ ends inTime serving =>
      exact (pollFrom_of_serving (Nat.max_eq_left dueLe) early ends inTime serving).symm
  | @retry _ _ _ _ dueLe early _ _ ends inTime notServing =>
      exact (pollFrom_of_not_serving (Nat.max_eq_left dueLe) early ends inTime notServing).symm

end Wakes

/-- A poller ends after a number of steps of its own. -/
inductive EndsIn (interval : Nat) {deadline : Nat} (script : ProbeScript) :
    (count : Nat) → (poller : Poller deadline) → Prop
  | ended (wait : Wait) : EndsIn interval script 0 (.ended wait)
  | wake {count : Nat} {poller next : Poller deadline} {moment : Nat}
      (wakes : Wakes interval script poller moment next)
      (rest : EndsIn interval script count next) :
      EndsIn interval script (count + 1) poller

section EndsIn

variable {interval : Nat} {deadline : Nat} {script : ProbeScript}

theorem EndsIn.exists_wakes
    {count : Nat}
    {poller : Poller deadline}
    (endsIn : EndsIn interval script count poller)
    (unended : ∀ wait, poller ≠ .ended wait) :
    ∃ fewer moment next, count = fewer + 1 ∧ Wakes interval script poller moment next ∧
      EndsIn interval script fewer next := by
  cases endsIn with
  | ended wait => exact absurd rfl (unended wait)
  | wake wakes rest => exact ⟨_, _, _, rfl, wakes, rest⟩

theorem exists_endsIn_resting
    (positive : 0 < interval)
    (index free due : Nat)
    (starts : List Nat)
    (seen : Option String) :
    ∃ count, EndsIn interval script count
      (.resting index free due starts seen : Poller deadline) := by
  induction index, free, due, starts, seen using poll_induction positive deadline script with
  | late index free due starts seen late => exact ⟨1, .wake (.close late) (.ended _)⟩
  | unfinished index free due starts seen early unfinished =>
      exact ⟨2, .wake (.start rfl (Nat.le_max_right _ _) early)
        (.wake (.abandon unfinished) (.ended _))⟩
  | serving index free due starts seen duration early ends inTime serving =>
      exact ⟨2, .wake (.start rfl (Nat.le_max_right _ _) early)
        (.wake (.serve ends inTime serving) (.ended _))⟩
  | notServing index free due starts seen duration early ends inTime notServing
      inductionHypothesis =>
      obtain ⟨count, endsIn⟩ := inductionHypothesis
      exact ⟨count + 2, .wake (.start rfl (Nat.le_max_right _ _) early)
        (.wake (.retry ends inTime notServing) endsIn)⟩

theorem exists_endsIn (positive : 0 < interval) (poller : Poller deadline) :
    ∃ count, EndsIn interval script count poller := by
  cases poller with
  | resting index free due starts seen => exact exists_endsIn_resting positive _ _ _ _ _
  | ended wait => exact ⟨0, .ended wait⟩
  | probing index started due dueLe early starts seen =>
      -- The poller is the one that waits from `started` on, one step later.
      obtain ⟨count, endsIn⟩ : ∃ count, EndsIn interval script count
          (.resting index started due starts seen : Poller deadline) :=
        exists_endsIn_resting positive index started due starts seen
      have startsAt : max started due = started := Nat.max_eq_left dueLe
      cases endsIn with
      | wake wakes rest =>
          cases wakes with
          | close late => exact absurd early (Nat.not_lt.mpr (startsAt ▸ late))
          | start startedEq =>
              obtain rfl := startedEq.trans startsAt
              exact ⟨_, rest⟩

end EndsIn

/-- What the pollers share, and where each of them stands. -/
structure GateState (deadline : Nat) (ι : Type) where
  moment : Nat
  pollers : ι → Poller deadline

namespace GateState

variable {ι : Type} {deadline : Nat}

def initial : GateState deadline ι :=
  { moment := 0, pollers := fun _ => .fresh }

def Done (state : GateState deadline ι) : Prop :=
  ∀ place, ∃ wait, state.pollers place = .ended wait

variable [DecidableEq ι]

def step
    (state : GateState deadline ι)
    (place : ι)
    (moment : Nat)
    (next : Poller deadline) : GateState deadline ι :=
  { moment, pollers := Function.update state.pollers place next }

variable {state : GateState deadline ι} {place : ι} {moment : Nat} {next : Poller deadline}

@[simp]
theorem step_pollers_self : (state.step place moment next).pollers place = next := by
  simp [step]

theorem step_pollers_of_ne {other : ι} (different : other ≠ place) :
    (state.step place moment next).pollers other = state.pollers other := by
  simp [step, different]

end GateState

/-- What holds of a wait at any time. -/
structure Follows
    {ι : Type}
    {deadline : Nat}
    (interval : Nat)
    (positive : 0 < interval)
    (scripts : ι → ProbeScript)
    (state : GateState deadline ι) : Prop where
  /-- Each poller will come to the wait that it would come to alone. -/
  outlook : ∀ place, (state.pollers place).outlook interval positive (scripts place) =
    pollFrom interval positive deadline (scripts place) 0 0 0 [] none
  /-- The clock has passed no timer. -/
  ahead : ∀ place later, (state.pollers place).alarm? (scripts place) = some later →
    state.moment ≤ later
  /-- The clock has reached every end. -/
  past : ∀ place wait, state.pollers place = .ended wait → wait.finish ≤ state.moment
  /-- Some poller made the last step, and if it ended, it ended just now. -/
  latest : state.moment = 0 ∨
    ∃ place, ∀ wait, state.pollers place = .ended wait → wait.finish = state.moment

/-- One poller does its next step. Its timer rings no later than any other. -/
inductive Moves
    {ι : Type}
    [DecidableEq ι]
    (interval : Nat)
    {deadline : Nat}
    (scripts : ι → ProbeScript)
    (state : GateState deadline ι) : GateState deadline ι → Prop
  | step (place : ι) {moment : Nat} {next : Poller deadline}
      (wakes : Wakes interval (scripts place) (state.pollers place) moment next)
      (first : ∀ other later,
        (state.pollers other).alarm? (scripts other) = some later → moment ≤ later) :
      Moves interval scripts state (state.step place moment next)

def Runs
    {ι : Type}
    [DecidableEq ι]
    (interval : Nat)
    {deadline : Nat}
    (scripts : ι → ProbeScript)
    (state : GateState deadline ι) : Prop :=
  Relation.ReflTransGen (Moves interval scripts) .initial state

section Invariant

variable {ι : Type} {interval : Nat} {positive : 0 < interval} {deadline : Nat}
variable {scripts : ι → ProbeScript} {state next : GateState deadline ι}

theorem Follows.initial :
    Follows interval positive scripts (.initial : GateState deadline ι) where
  outlook _ := rfl
  ahead _ _ _ := Nat.zero_le _
  past _ _ ended := by cases ended
  latest := .inl rfl

/-- A poller ends with the wait that it would come to alone. -/
theorem Follows.ended_eq
    (follows : Follows interval positive scripts state)
    {place : ι}
    {wait : Wait}
    (ended : state.pollers place = .ended wait) :
    wait = pollFrom interval positive deadline (scripts place) 0 0 0 [] none := by
  rw [← follows.outlook place, ended]
  rfl

variable [DecidableEq ι]

theorem Follows.move
    (follows : Follows interval positive scripts state)
    (moves : Moves interval scripts state next) :
    Follows interval positive scripts next := by
  obtain @⟨place, moment, poller, wakes, first⟩ := moves
  -- The clock does not go back: it has passed no timer, and this one rings first.
  have onward : state.moment ≤ moment := follows.ahead place moment wakes.alarm_eq
  refine ⟨?_, ?_, ?_, ?_⟩
  · intro other
    by_cases same : other = place
    · subst same
      rw [GateState.step_pollers_self, wakes.outlook_eq, follows.outlook]
    · rw [GateState.step_pollers_of_ne same, follows.outlook]
  · intro other later rings
    by_cases same : other = place
    · subst same
      rw [GateState.step_pollers_self] at rings
      exact wakes.le_next_alarm rings
    · rw [GateState.step_pollers_of_ne same] at rings
      exact first other later rings
  · intro other wait ended
    by_cases same : other = place
    · subst same
      rw [GateState.step_pollers_self] at ended
      exact (wakes.finish_eq ended).le
    · rw [GateState.step_pollers_of_ne same] at ended
      exact (follows.past other wait ended).trans onward
  · refine .inr ⟨place, fun wait ended => ?_⟩
    rw [GateState.step_pollers_self] at ended
    exact wakes.finish_eq ended

theorem Runs.follows (runs : Runs interval scripts state) :
    Follows interval positive scripts state := by
  induction runs with
  | refl => exact .initial
  | tail _ moves inductionHypothesis => exact inductionHypothesis.move moves

end Invariant

/-! ### Every wait ends -/

section Completion

variable {ι : Type} [Fintype ι]
variable {interval : Nat} {deadline : Nat} {scripts : ι → ProbeScript}
variable {state : GateState deadline ι} {counts : ι → Nat}

/-- While some poller has not ended, one of them has the first timer. -/
theorem exists_first
    (endsIn : ∀ place, EndsIn interval (scripts place) (counts place) (state.pollers place))
    (unfinished : ¬ state.Done) :
    ∃ place fewer moment next,
      counts place = fewer + 1 ∧ EndsIn interval (scripts place) fewer next ∧
      Wakes interval (scripts place) (state.pollers place) moment next ∧
      ∀ other later, (state.pollers other).alarm? (scripts other) = some later →
        moment ≤ later := by
  let alarm := fun place => (state.pollers place).alarm? (scripts place)
  let pending := Finset.univ.filter fun place => (alarm place).isSome
  have some_pending : pending.Nonempty := by
    simp only [GateState.Done, not_forall, not_exists] at unfinished
    obtain ⟨place, unended⟩ := unfinished
    obtain ⟨_, moment, _, _, wakes, _⟩ := (endsIn place).exists_wakes unended
    exact ⟨place, by simp [pending, alarm, wakes.alarm_eq]⟩
  obtain ⟨place, placePending, least⟩ :=
    pending.exists_min_image (fun place => (alarm place).getD 0) some_pending
  have unended : ∀ wait, state.pollers place ≠ .ended wait := by
    intro wait ended
    have ringsPlace := (Finset.mem_filter.mp placePending).2
    simp [alarm, ended, Poller.alarm?] at ringsPlace
  obtain ⟨fewer, moment, next, countEq, wakes, rest⟩ := (endsIn place).exists_wakes unended
  refine ⟨place, fewer, moment, next, countEq, rest, wakes, fun other later rings => ?_⟩
  have otherPending : other ∈ pending := by simp [pending, alarm, rings]
  simpa [alarm, rings, wakes.alarm_eq] using least other otherPending

variable [DecidableEq ι]

theorem exists_done_of_counts
    (endsIn : ∀ place, EndsIn interval (scripts place) (counts place) (state.pollers place)) :
    ∃ final, Relation.ReflTransGen (Moves interval scripts) state final ∧ final.Done := by
  -- Each step brings one poller closer to its end and leaves the others where they are.
  induction totalEq : ∑ place, counts place using Nat.strong_induction_on
      generalizing state counts with
  | h total inductionHypothesis =>
      by_cases done : state.Done
      · exact ⟨state, .refl, done⟩
      · obtain ⟨place, fewer, moment, next, countEq, rest, wakes, first⟩ :=
          exists_first endsIn done
        have less : ∑ other, Function.update counts place fewer other < total := by
          rw [← totalEq]
          exact Fintype.sum_strictMono (update_lt_self_iff.mpr (by omega))
        have endsInNext : ∀ other, EndsIn interval (scripts other)
            (Function.update counts place fewer other)
            ((state.step place moment next).pollers other) := by
          intro other
          by_cases same : other = place
          · subst same
            rw [Function.update_self, GateState.step_pollers_self]
            exact rest
          · rw [Function.update_of_ne same, GateState.step_pollers_of_ne same]
            exact endsIn other
        obtain ⟨final, runs, finalDone⟩ := inductionHypothesis _ less endsInNext rfl
        exact ⟨final, .head (.step place wakes first) runs, finalDone⟩

/-- Every wait can go on until all pollers have ended. -/
theorem exists_done (positive : 0 < interval) (state : GateState deadline ι) :
    ∃ final, Relation.ReflTransGen (Moves interval scripts) state final ∧ final.Done := by
  have ends : ∀ place, ∃ count, EndsIn interval (scripts place) count (state.pollers place) :=
    fun place => exists_endsIn positive (state.pollers place)
  choose counts endsIn using ends
  exact exists_done_of_counts endsIn

end Completion

end Precis.Service

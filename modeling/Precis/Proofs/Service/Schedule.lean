import Mathlib.Order.Lattice
import Mathlib.Data.Nat.Basic
import Precis.Service.Readiness

/-!
Contract: when the probes of one service start.

This module owns the schedule that the probes of a service would follow if there
were no deadline, and what the deadline does to it: the probes that are started
are those that the schedule has before the deadline, and the service is ready
exactly if one of these is answered by a serving service in time. What a probe
says otherwise moves nothing.
-/

namespace Precis.Service

/-- A place in a schedule: the moment from which the probe may start, which is
the end of the one before, and the moment at which it is due. -/
structure Slot where
  free : Nat
  due : Nat

namespace Slot

/-- The first probe is due at once. -/
def first : Slot := { free := 0, due := 0 }

def start (slot : Slot) : Nat := max slot.free slot.due

/-- The slot that follows a probe, if it ends and finds no serving service. -/
def after? (interval : Nat) (slot : Slot) (probe : Probe) : Option Slot :=
  match probe.answer with
  | .ok .serving => none
  | _ => probe.duration.map fun duration =>
      { free := slot.start + duration, due := nextDue interval slot.due slot.start }

theorem after?_eq_some_iff {interval : Nat} {slot next : Slot} {probe : Probe} :
    slot.after? interval probe = some next ↔
      probe.answer ≠ .ok .serving ∧
      ∃ duration, probe.duration = some duration ∧
        next = ⟨slot.start + duration, nextDue interval slot.due slot.start⟩ := by
  unfold after?
  split
  case h_1 serving => simp [serving]
  case h_2 notServing =>
    rw [Option.map_eq_some_iff, and_iff_right notServing]
    simp only [eq_comm]

end Slot

/-- The slot of the probe of an index, if the service comes to be probed so often. -/
def slot? (interval : Nat) (script : ProbeScript) : (index : Nat) → Option Slot
  | 0 => some Slot.first
  | index + 1 =>
      (slot? interval script index).bind fun slot => slot.after? interval (script index)

def start? (interval : Nat) (script : ProbeScript) (index : Nat) : Option Nat :=
  (slot? interval script index).map Slot.start

/-- The probe of an index starts before the deadline, and a serving service has
answered it by the deadline. -/
def ServesAt (interval deadline : Nat) (script : ProbeScript) (index : Nat) : Prop :=
  ∃ started duration,
    start? interval script index = some started ∧ started < deadline ∧
    (script index).duration = some duration ∧ (script index).answer = .ok .serving ∧
    started + duration ≤ deadline

section Order

variable {interval : Nat} {script : ProbeScript} {index : Nat}

theorem slot?_succ_eq_some_iff {next : Slot} :
    slot? interval script (index + 1) = some next ↔
      ∃ slot, slot? interval script index = some slot ∧
        slot.after? interval (script index) = some next := by
  rw [slot?, Option.bind_eq_some_iff]

theorem slot?_succ_of_not_serving
    {slot : Slot}
    {duration : Nat}
    (found : slot? interval script index = some slot)
    (ends : (script index).duration = some duration)
    (notServing : (script index).answer ≠ .ok .serving) :
    slot? interval script (index + 1) =
      some ⟨slot.start + duration, nextDue interval slot.due slot.start⟩ :=
  slot?_succ_eq_some_iff.mpr
    ⟨slot, found, Slot.after?_eq_some_iff.mpr ⟨notServing, duration, ends, rfl⟩⟩

theorem start?_eq_some_of_slot {slot : Slot} (found : slot? interval script index = some slot) :
    start? interval script index = some slot.start := by
  rw [start?, found, Option.map_some]

/-- A probe that has one after it ends, and no later one starts before. -/
theorem end_le_start
    {earlier later : Nat}
    {slot : Slot}
    {started : Nat}
    (before : earlier < later)
    (found : slot? interval script earlier = some slot)
    (starts : start? interval script later = some started) :
    (script earlier).answer ≠ .ok .serving ∧
      ∃ duration, (script earlier).duration = some duration ∧
        slot.start + duration ≤ started := by
  obtain ⟨lastSlot, lastFound, rfl⟩ := Option.map_eq_some_iff.mp starts
  clear starts
  induction before generalizing lastSlot with
  | refl =>
      obtain ⟨same, sameFound, follows⟩ := slot?_succ_eq_some_iff.mp lastFound
      obtain rfl := Option.some.inj (found.symm.trans sameFound)
      obtain ⟨notServing, duration, ends, rfl⟩ := Slot.after?_eq_some_iff.mp follows
      exact ⟨notServing, duration, ends, Nat.le_max_left _ _⟩
  | step _ inductionHypothesis =>
      obtain ⟨middle, middleFound, follows⟩ := slot?_succ_eq_some_iff.mp lastFound
      obtain ⟨notServing, duration, ends, endsBefore⟩ := inductionHypothesis middle middleFound
      obtain ⟨-, _, -, rfl⟩ := Slot.after?_eq_some_iff.mp follows
      refine ⟨notServing, duration, ends, endsBefore.trans ?_⟩
      exact (Nat.le_add_right _ _).trans (Nat.le_max_left _ _)

theorem start_le_start
    {earlier later : Nat}
    {slot : Slot}
    {started : Nat}
    (before : earlier ≤ later)
    (found : slot? interval script earlier = some slot)
    (starts : start? interval script later = some started) :
    slot.start ≤ started := by
  rcases Nat.lt_or_eq_of_le before with earlierLt | rfl
  · obtain ⟨-, duration, -, endsBefore⟩ := end_le_start earlierLt found starts
    exact (Nat.le_add_right _ _).trans endsBefore
  · exact (Option.some.inj ((start?_eq_some_of_slot found).symm.trans starts)).le

end Order

/-- No probe from an index on starts before the deadline. -/
def TooLate (interval deadline : Nat) (script : ProbeScript) (index : Nat) : Prop :=
  ∀ later started, index ≤ later → start? interval script later = some started →
    deadline ≤ started

section Deadline

variable {interval deadline : Nat} {script : ProbeScript} {index : Nat} {slot : Slot}

theorem tooLate_of_late
    (found : slot? interval script index = some slot)
    (late : deadline ≤ slot.start) :
    TooLate interval deadline script index :=
  fun _ _ before starts => late.trans (start_le_start before found starts)

/-- Nothing follows a probe that is still running at the deadline, or never ends. -/
theorem tooLate_of_unfinished
    (found : slot? interval script index = some slot)
    (unfinished : ∀ duration, (script index).duration = some duration →
      deadline < slot.start + duration) :
    TooLate interval deadline script (index + 1) := by
  intro later started before starts
  obtain ⟨-, duration, ends, endsBefore⟩ := end_le_start before found starts
  exact (unfinished duration ends).le.trans endsBefore

theorem tooLate_of_serving
    (found : slot? interval script index = some slot)
    (serving : (script index).answer = .ok .serving) :
    TooLate interval deadline script (index + 1) := by
  intro later started before starts
  exact absurd serving (end_le_start before found starts).1

theorem TooLate.not_servesAt
    (tooLate : TooLate interval deadline script index)
    {later : Nat}
    (before : index ≤ later) :
    ¬ ServesAt interval deadline script later := by
  rintro ⟨started, _, starts, early, -⟩
  exact absurd early (Nat.not_lt.mpr (tooLate later started before starts))

theorem exists_servesAt_iff :
    (∃ later, index ≤ later ∧ ServesAt interval deadline script later) ↔
      ServesAt interval deadline script index ∨
        ∃ later, index + 1 ≤ later ∧ ServesAt interval deadline script later := by
  constructor
  · rintro ⟨later, before, serves⟩
    rcases Nat.lt_or_eq_of_le before with less | rfl
    · exact .inr ⟨later, less, serves⟩
    · exact .inl serves
  · rintro (serves | ⟨later, before, serves⟩)
    · exact ⟨index, Nat.le_refl _, serves⟩
    · exact ⟨later, Nat.le_of_succ_le before, serves⟩

theorem TooLate.exists_servesAt_iff_here
    (tooLate : TooLate interval deadline script (index + 1)) :
    (∃ later, index ≤ later ∧ ServesAt interval deadline script later) ↔
      ServesAt interval deadline script index := by
  rw [exists_servesAt_iff, or_iff_left]
  rintro ⟨later, before, serves⟩
  exact tooLate.not_servesAt before serves

theorem servesAt_iff_of_slot (found : slot? interval script index = some slot) :
    ServesAt interval deadline script index ↔
      slot.start < deadline ∧ (script index).answer = .ok .serving ∧
      ∃ duration, (script index).duration = some duration ∧ slot.start + duration ≤ deadline := by
  unfold ServesAt
  rw [start?_eq_some_of_slot found]
  constructor
  · rintro ⟨_, duration, ⟨rfl⟩, early, ends, serving, inTime⟩
    exact ⟨early, serving, duration, ends, inTime⟩
  · rintro ⟨early, serving, duration, ends, inTime⟩
    exact ⟨_, duration, rfl, early, ends, serving, inTime⟩

/-- The moments at which probes start from an index on, before the deadline. -/
def Lists (interval deadline : Nat) (script : ProbeScript) (index : Nat) (moments : List Nat) :
    Prop :=
  ∀ offset started, moments[offset]? = some started ↔
    start? interval script (index + offset) = some started ∧ started < deadline

theorem TooLate.lists_nil (tooLate : TooLate interval deadline script index) :
    Lists interval deadline script index [] := by
  intro offset started
  simp only [List.getElem?_nil, reduceCtorEq, false_iff, not_and, Nat.not_lt]
  exact tooLate (index + offset) started (Nat.le_add_right _ _)

theorem Lists.cons
    {moments : List Nat}
    (found : slot? interval script index = some slot)
    (early : slot.start < deadline)
    (rest : Lists interval deadline script (index + 1) moments) :
    Lists interval deadline script index (slot.start :: moments) := by
  rintro (_ | offset) started
  · simp only [List.getElem?_cons_zero, Nat.add_zero, start?_eq_some_of_slot found,
      Option.some.injEq]
    exact ⟨fun same => ⟨same, same ▸ early⟩, And.left⟩
  · rw [List.getElem?_cons_succ, rest offset started, Nat.add_right_comm, Nat.add_assoc]

end Deadline

/-! ### The poller follows the schedule -/

section Poller

variable {interval : Nat} {positive : 0 < interval} {deadline : Nat} {script : ProbeScript}
variable {index now due : Nat} {starts : List Nat} {seen : Option String}

/-- Nothing depends on when the probe before ended, once the next one starts. -/
theorem pollFrom_started {started : Nat} (startsAt : max now due = started) :
    pollFrom interval positive deadline script index started due starts seen =
      pollFrom interval positive deadline script index now due starts seen := by
  have same : max started due = max now due := by omega
  rw [pollFrom]
  conv_rhs => rw [pollFrom]
  rw [same]

theorem pollFrom_of_late (late : deadline ≤ max now due) :
    pollFrom interval positive deadline script index now due starts seen =
      { finish := deadline, starts := starts.reverse, healthy := false, detail := seen } := by
  rw [pollFrom]
  exact dif_pos late

/-- A probe that has not ended at the deadline is given up there. -/
theorem pollFrom_of_unfinished
    {started : Nat}
    (startsAt : max now due = started)
    (early : started < deadline)
    (unfinished : ∀ duration, (script index).duration = some duration →
      deadline < started + duration) :
    pollFrom interval positive deadline script index now due starts seen =
      { finish := deadline
        starts := (started :: starts).reverse
        healthy := false
        detail := some (seen.getD noProbeEnded) } := by
  subst startsAt
  rw [pollFrom]
  simp only [Nat.not_le.mpr early, dite_false]
  cases ends : (script index).duration with
  | none => rfl
  | some duration => exact if_pos (unfinished duration ends)

theorem pollFrom_of_serving
    {started duration : Nat}
    (startsAt : max now due = started)
    (early : started < deadline)
    (ends : (script index).duration = some duration)
    (inTime : started + duration ≤ deadline)
    (serving : (script index).answer = .ok .serving) :
    pollFrom interval positive deadline script index now due starts seen =
      { finish := started + duration
        starts := (started :: starts).reverse
        healthy := true
        detail := none } := by
  subst startsAt
  rw [pollFrom]
  simp only [Nat.not_le.mpr early, dite_false, ends, Nat.not_lt.mpr inTime, if_false, serving]

/-- Any other answer is remembered, and the next probe follows. -/
theorem pollFrom_of_not_serving
    {started duration : Nat}
    (startsAt : max now due = started)
    (early : started < deadline)
    (ends : (script index).duration = some duration)
    (inTime : started + duration ≤ deadline)
    (notServing : (script index).answer ≠ .ok .serving) :
    pollFrom interval positive deadline script index now due starts seen =
      pollFrom interval positive deadline script (index + 1) (started + duration)
        (nextDue interval due started) (started :: starts)
        (some (probeDetail (script index).answer)) := by
  subst startsAt
  conv_lhs => rw [pollFrom]
  simp only [Nat.not_le.mpr early, dite_false, ends, Nat.not_lt.mpr inTime, if_false]

/-- What may come of a poller at each of its probes, and what follows. The next
probe is due later than this one, and no probe starts at the deadline, so there
is a last one. -/
@[elab_as_elim]
theorem poll_induction
    (positive : 0 < interval)
    (deadline : Nat)
    (script : ProbeScript)
    {motive : (index now due : Nat) → (starts : List Nat) → (seen : Option String) → Prop}
    (late : ∀ index now due starts seen, deadline ≤ max now due → motive index now due starts seen)
    (unfinished : ∀ index now due starts seen, max now due < deadline →
      (∀ duration, (script index).duration = some duration → deadline < max now due + duration) →
        motive index now due starts seen)
    (serving : ∀ index now due starts seen duration, max now due < deadline →
      (script index).duration = some duration → max now due + duration ≤ deadline →
        (script index).answer = .ok .serving → motive index now due starts seen)
    (notServing : ∀ index now due starts seen duration, max now due < deadline →
      (script index).duration = some duration → max now due + duration ≤ deadline →
        (script index).answer ≠ .ok .serving →
          motive (index + 1) (max now due + duration) (nextDue interval due (max now due))
            (max now due :: starts) (some (probeDetail (script index).answer)) →
              motive index now due starts seen)
    (index now due : Nat)
    (starts : List Nat)
    (seen : Option String) :
    motive index now due starts seen := by
  fun_induction pollFrom interval positive deadline script index now due starts seen with
  | case1 index now due starts seen started tooLate => exact late _ _ _ _ _ tooLate
  -- A probe that never ends and one that ends too late are given up alike.
  | case2 index now due starts seen started early probe endless =>
      refine unfinished _ _ _ _ _ (Nat.not_le.mp early) fun duration ends => ?_
      exact absurd (ends.symm.trans endless) (Option.some_ne_none duration)
  | case3 index now due starts seen started early probe duration ends finished tooLong =>
      refine unfinished _ _ _ _ _ (Nat.not_le.mp early) fun other otherEnds => ?_
      obtain rfl := Option.some.inj (ends.symm.trans otherEnds)
      exact tooLong
  | case4 index now due starts seen started early probe duration ends finished inTime serves =>
      exact serving _ _ _ _ _ _ (Nat.not_le.mp early) ends (Nat.not_lt.mp inTime) serves
  | case5 index now due starts seen started early probe duration ends finished inTime other
      inductionHypothesis =>
      exact notServing _ _ _ _ _ _ (Nat.not_le.mp early) ends (Nat.not_lt.mp inTime) other
        inductionHypothesis

/-- No wait ends after the deadline, and one without success ends at it. -/
theorem pollFrom_finish :
    let wait := pollFrom interval positive deadline script index now due starts seen
    wait.finish ≤ deadline ∧ (wait.healthy = false → wait.finish = deadline) := by
  induction index, now, due, starts, seen using poll_induction positive deadline script with
  | late index now due starts seen late =>
      rw [pollFrom_of_late late]
      exact ⟨Nat.le_refl _, fun _ => rfl⟩
  | unfinished index now due starts seen early unfinished =>
      rw [pollFrom_of_unfinished rfl early unfinished]
      exact ⟨Nat.le_refl _, fun _ => rfl⟩
  | serving index now due starts seen duration early ends inTime serving =>
      rw [pollFrom_of_serving rfl early ends inTime serving]
      exact ⟨inTime, nofun⟩
  | notServing index now due starts seen duration early ends inTime other inductionHypothesis =>
      rw [pollFrom_of_not_serving rfl early ends inTime other]
      exact inductionHypothesis

/-- Polling succeeds exactly if some probe from here on is answered in time by
a serving service. -/
theorem pollFrom_healthy_iff (here : slot? interval script index = some ⟨now, due⟩) :
    (pollFrom interval positive deadline script index now due starts seen).healthy = true ↔
      ∃ later, index ≤ later ∧ ServesAt interval deadline script later := by
  induction index, now, due, starts, seen using poll_induction positive deadline script with
  | late index now due starts seen late =>
      have tooLate := tooLate_of_late here late
      rw [pollFrom_of_late late]
      simpa using fun later before => tooLate.not_servesAt before
  | unfinished index now due starts seen early unfinished =>
      have tooLate := tooLate_of_unfinished here unfinished
      rw [pollFrom_of_unfinished rfl early unfinished, tooLate.exists_servesAt_iff_here,
        servesAt_iff_of_slot here]
      refine iff_of_false Bool.false_ne_true ?_
      rintro ⟨-, -, duration, ends, inTime⟩
      exact absurd inTime (Nat.not_le.mpr (unfinished duration ends))
  | serving index now due starts seen duration early ends inTime serving =>
      have serves : ServesAt interval deadline script index :=
        (servesAt_iff_of_slot here).mpr ⟨early, serving, duration, ends, inTime⟩
      rw [pollFrom_of_serving rfl early ends inTime serving]
      exact iff_of_true rfl ⟨index, Nat.le_refl _, serves⟩
  | notServing index now due starts seen duration early ends inTime other inductionHypothesis =>
      have notHere : ¬ ServesAt interval deadline script index :=
        fun serves => other ((servesAt_iff_of_slot here).mp serves).2.1
      rw [pollFrom_of_not_serving rfl early ends inTime other,
        inductionHypothesis (slot?_succ_of_not_serving here ends other)]
      exact (or_iff_right notHere).symm.trans exists_servesAt_iff.symm

/-- A poller ends with the probe that a serving service answers in time. -/
theorem pollFrom_finish_of_servesAt
    {later started duration : Nat}
    (here : slot? interval script index = some ⟨now, due⟩)
    (before : index ≤ later)
    (serves : ServesAt interval deadline script later)
    (starting : start? interval script later = some started)
    (ending : (script later).duration = some duration) :
    (pollFrom interval positive deadline script index now due starts seen).finish =
      started + duration := by
  induction index, now, due, starts, seen using poll_induction positive deadline script with
  | late index now due starts seen late =>
      exact absurd serves ((tooLate_of_late here late).not_servesAt before)
  | unfinished index now due starts seen early unfinished =>
      have servesHere := (tooLate_of_unfinished here unfinished).exists_servesAt_iff_here.mp
        ⟨later, before, serves⟩
      obtain ⟨_, _, other, ends, inTime⟩ := (servesAt_iff_of_slot here).mp servesHere
      exact absurd inTime (Nat.not_le.mpr (unfinished other ends))
  | serving index now due starts seen other early ends inTime serving =>
      rcases Nat.lt_or_eq_of_le before with less | rfl
      · exact absurd serves ((tooLate_of_serving here serving).not_servesAt less)
      · obtain rfl := Option.some.inj (ends.symm.trans ending)
        obtain rfl := Option.some.inj ((start?_eq_some_of_slot here).symm.trans starting)
        rw [pollFrom_of_serving rfl early ends inTime serving]
        rfl
  | notServing index now due starts seen other early ends inTime notServing inductionHypothesis =>
      rcases Nat.lt_or_eq_of_le before with less | rfl
      · rw [pollFrom_of_not_serving rfl early ends inTime notServing]
        exact inductionHypothesis (slot?_succ_of_not_serving here ends notServing) less
      · obtain ⟨_, serving, _⟩ := (servesAt_iff_of_slot here).mp serves
        exact absurd serving notServing

/-- The probes that are started are those that the schedule has before the deadline. -/
theorem exists_pollFrom_starts (here : slot? interval script index = some ⟨now, due⟩) :
    ∃ moments,
      (pollFrom interval positive deadline script index now due starts seen).starts =
        starts.reverse ++ moments ∧
      Lists interval deadline script index moments := by
  induction index, now, due, starts, seen using poll_induction positive deadline script with
  | late index now due starts seen late =>
      rw [pollFrom_of_late late]
      exact ⟨[], (List.append_nil _).symm, (tooLate_of_late here late).lists_nil⟩
  | unfinished index now due starts seen early unfinished =>
      rw [pollFrom_of_unfinished rfl early unfinished]
      exact ⟨[max now due], List.reverse_cons,
        .cons here early (tooLate_of_unfinished here unfinished).lists_nil⟩
  | serving index now due starts seen duration early ends inTime serving =>
      rw [pollFrom_of_serving rfl early ends inTime serving]
      exact ⟨[max now due], List.reverse_cons,
        .cons here early (tooLate_of_serving here serving).lists_nil⟩
  | notServing index now due starts seen duration early ends inTime other inductionHypothesis =>
      obtain ⟨moments, startsEq, lists⟩ :=
        inductionHypothesis (slot?_succ_of_not_serving here ends other)
      refine ⟨max now due :: moments, ?_, .cons here early lists⟩
      rw [pollFrom_of_not_serving rfl early ends inTime other, startsEq, List.reverse_cons,
        List.append_assoc, List.singleton_append]

/-- Two services whose probes take the same times, and are answered by a serving
service at the same places. -/
def SameCourse (script other : ProbeScript) : Prop :=
  ∀ index, (other index).duration = (script index).duration ∧
    ((other index).answer = .ok .serving ↔ (script index).answer = .ok .serving)

/-- What a probe says, beyond that the service serves, moves nothing but the detail. -/
theorem SameCourse.pollFrom_eq
    {other : ProbeScript}
    (same : SameCourse script other)
    (otherSeen : Option String) :
    let wait := pollFrom interval positive deadline script index now due starts seen
    let otherWait := pollFrom interval positive deadline other index now due starts otherSeen
    otherWait.finish = wait.finish ∧ otherWait.starts = wait.starts ∧
      otherWait.healthy = wait.healthy := by
  induction index, now, due, starts, seen using poll_induction positive deadline script
      generalizing otherSeen with
  | late index now due starts seen late =>
      rw [pollFrom_of_late late, pollFrom_of_late late]
      exact ⟨rfl, rfl, rfl⟩
  | unfinished index now due starts seen early unfinished =>
      have otherUnfinished : ∀ duration, (other index).duration = some duration →
          deadline < max now due + duration :=
        fun duration ends => unfinished duration ((same index).1 ▸ ends)
      rw [pollFrom_of_unfinished rfl early unfinished,
        pollFrom_of_unfinished rfl early otherUnfinished]
      exact ⟨rfl, rfl, rfl⟩
  | serving index now due starts seen duration early ends inTime serving =>
      have otherEnds := (same index).1.trans ends
      have otherServing := (same index).2.mpr serving
      rw [pollFrom_of_serving rfl early ends inTime serving,
        pollFrom_of_serving rfl early otherEnds inTime otherServing]
      exact ⟨rfl, rfl, rfl⟩
  | notServing index now due starts seen duration early ends inTime notServing
      inductionHypothesis =>
      have otherEnds := (same index).1.trans ends
      have otherNotServing : (other index).answer ≠ .ok .serving :=
        fun otherServing => notServing ((same index).2.mp otherServing)
      rw [pollFrom_of_not_serving rfl early ends inTime notServing,
        pollFrom_of_not_serving rfl early otherEnds inTime otherNotServing]
      exact inductionHypothesis _

end Poller

namespace Gate

variable {gate : Gate} {deadline : Nat} {script : ProbeScript}

theorem interval_positive (gate : Gate) : 0 < gate.interval.nanoseconds :=
  Nat.lt_of_lt_of_le (by decide) gate.one_millisecond_le

/-- The service is ready: a probe starts before the deadline and is answered by
a serving service no later than it. -/
def Serves (gate : Gate) (deadline : Nat) (script : ProbeScript) : Prop :=
  ∃ index, ServesAt gate.interval.nanoseconds deadline script index

theorem poll_healthy_iff :
    (gate.poll deadline script).healthy = true ↔ gate.Serves deadline script := by
  unfold poll Serves
  rw [pollFrom_healthy_iff rfl]
  simp only [Nat.zero_le, true_and]

instance : Decidable (gate.Serves deadline script) :=
  decidable_of_iff _ poll_healthy_iff

theorem poll_finish_le : (gate.poll deadline script).finish ≤ deadline :=
  pollFrom_finish.1

theorem poll_finish_eq (failed : (gate.poll deadline script).healthy = false) :
    (gate.poll deadline script).finish = deadline :=
  pollFrom_finish.2 failed

theorem getElem?_poll_starts (index started : Nat) :
    (gate.poll deadline script).starts[index]? = some started ↔
      start? gate.interval.nanoseconds script index = some started ∧
        started < deadline := by
  obtain ⟨moments, startsEq, lists⟩ : ∃ moments,
      (gate.poll deadline script).starts = [].reverse ++ moments ∧
      Lists gate.interval.nanoseconds deadline script 0 moments :=
    exists_pollFrom_starts rfl
  rw [startsEq, List.reverse_nil, List.nil_append, lists index started, Nat.zero_add]

theorem poll_finish_of_servesAt
    {index started duration : Nat}
    (serves : ServesAt gate.interval.nanoseconds deadline script index)
    (starting : start? gate.interval.nanoseconds script index = some started)
    (ending : (script index).duration = some duration) :
    (gate.poll deadline script).finish = started + duration :=
  pollFrom_finish_of_servesAt rfl (Nat.zero_le index) serves starting ending

/-- No probe starts after the wait for its service has ended. -/
theorem start_le_poll_finish
    {index started : Nat}
    (starts : (gate.poll deadline script).starts[index]? = some started) :
    started ≤ (gate.poll deadline script).finish := by
  obtain ⟨starting, early⟩ := (getElem?_poll_starts index started).mp starts
  cases healthy : (gate.poll deadline script).healthy with
  | false =>
      rw [poll_finish_eq healthy]
      exact early.le
  | true =>
      obtain ⟨last, serves⟩ := poll_healthy_iff.mp healthy
      obtain ⟨lastStarted, duration, lastStarting, _, ending, serving, _⟩ := id serves
      rw [poll_finish_of_servesAt serves lastStarting ending]
      obtain ⟨slot, found, rfl⟩ := Option.map_eq_some_iff.mp starting
      obtain ⟨lastSlot, lastFound, rfl⟩ := Option.map_eq_some_iff.mp lastStarting
      rcases Nat.lt_or_ge last index with after | before
      · exact absurd serving (end_le_start after lastFound starting).1
      · exact (start_le_start before found lastStarting).trans (Nat.le_add_right _ _)

/-- The probes of a service start one after the other. -/
theorem poll_starts_sorted : (gate.poll deadline script).starts.Pairwise (· ≤ ·) := by
  rw [List.pairwise_iff_getElem]
  intro earlier later earlierWithin laterWithin before
  have earlierStarts := ((getElem?_poll_starts earlier _).mp
    (List.getElem?_eq_getElem earlierWithin)).1
  have laterStarts := ((getElem?_poll_starts later _).mp
    (List.getElem?_eq_getElem laterWithin)).1
  obtain ⟨slot, found, isStart⟩ := Option.map_eq_some_iff.mp earlierStarts
  rw [← isStart]
  exact start_le_start before.le found laterStarts

end Gate

end Precis.Service

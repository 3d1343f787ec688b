import Precis.Proofs.Service.Schedule

/-!
Contract: how often one service is probed, and what is said of it if it fails.

Owns that a probe is due no earlier than one interval after the one before, from
which the number of probes is bounded by the number of intervals that begin
before the deadline; and that the detail of a failed wait is the word of the
last probe that ended in time, whatever was still running at the deadline.

Does not own which services are ready, nor what a pool makes of its services.
-/

namespace Precis.Service

/-- The probe of an index starts before the deadline and ends by it. -/
def EndsInTime (interval deadline : Nat) (script : ProbeScript) (index : Nat) : Prop :=
  ∃ started duration,
    start? interval script index = some started ∧ started < deadline ∧
      (script index).duration = some duration ∧ started + duration ≤ deadline

/-! ### The number of probes -/

section Spacing

variable {interval : Nat} {script : ProbeScript} {index : Nat}

theorem add_interval_le_nextDue {due started : Nat} (late : due ≤ started) :
    due + interval ≤ nextDue interval due started := by
  have spaced : due + interval ≤ nextDue interval due started ∨
      started + interval ≤ nextDue interval due started := le_nextDue
  rcases spaced with onTime | behind
  · exact onTime
  · exact (Nat.add_le_add_right late interval).trans behind

/-- The probe of an index is due after as many intervals at the least. -/
theorem mul_interval_le_due {slot : Slot} (found : slot? interval script index = some slot) :
    index * interval ≤ slot.due := by
  induction index generalizing slot with
  | zero =>
      rw [Nat.zero_mul]
      exact Nat.zero_le _
  | succ index inductionHypothesis =>
      obtain ⟨earlier, earlierFound, follows⟩ := slot?_succ_eq_some_iff.mp found
      obtain ⟨-, _, -, rfl⟩ := Slot.after?_eq_some_iff.mp follows
      have spaced : earlier.due + interval ≤ nextDue interval earlier.due earlier.start :=
        add_interval_le_nextDue (Nat.le_max_right _ _)
      calc (index + 1) * interval = index * interval + interval := Nat.succ_mul _ _
        _ ≤ earlier.due + interval := Nat.add_le_add_right (inductionHypothesis earlierFound) _
        _ ≤ nextDue interval earlier.due earlier.start := spaced

theorem mul_interval_le_start
    {started : Nat}
    (starts : start? interval script index = some started) :
    index * interval ≤ started := by
  obtain ⟨slot, found, rfl⟩ := Option.map_eq_some_iff.mp starts
  exact (mul_interval_le_due found).trans (Nat.le_max_right _ _)

end Spacing

/-! ### The detail of a failed wait -/

section Detail

variable {interval : Nat} {positive : 0 < interval} {deadline : Nat} {script : ProbeScript}
variable {index now due : Nat} {starts : List Nat} {seen : Option String}

theorem TooLate.not_endsInTime
    (tooLate : TooLate interval deadline script index)
    {later : Nat}
    (before : index ≤ later) :
    ¬ EndsInTime interval deadline script later := by
  rintro ⟨started, _, starting, early, -⟩
  exact absurd early (Nat.not_lt.mpr (tooLate later started before starting))

/-- What a poller has to say if it fails: the word of the last probe from here on
that ends in time. If none does, what was seen before stands, unless nothing
was and a probe is given up at the deadline. -/
theorem pollFrom_detail
    (here : slot? interval script index = some ⟨now, due⟩)
    (failed :
      (pollFrom interval positive deadline script index now due starts seen).healthy = false) :
    let detail := (pollFrom interval positive deadline script index now due starts seen).detail
    (∃ last, EndsInTime interval deadline script last ∧
        (∀ later, last < later → ¬ EndsInTime interval deadline script later) ∧
        detail = some (probeDetail (script last).answer)) ∨
      (∀ later, index ≤ later → ¬ EndsInTime interval deadline script later) ∧
        detail = if max now due < deadline then some (seen.getD noProbeEnded) else seen := by
  induction index, now, due, starts, seen using poll_induction positive deadline script with
  | late index now due starts seen late =>
      rw [pollFrom_of_late late]
      refine .inr ⟨fun later => (tooLate_of_late here late).not_endsInTime, ?_⟩
      exact (if_neg (Nat.not_lt.mpr late)).symm
  | unfinished index now due starts seen early unfinished =>
      rw [pollFrom_of_unfinished rfl early unfinished]
      refine .inr ⟨fun later before => ?_, (if_pos early).symm⟩
      rcases Nat.lt_or_eq_of_le before with less | rfl
      · exact (tooLate_of_unfinished here unfinished).not_endsInTime less
      · rintro ⟨started, duration, starting, -, ends, inTime⟩
        obtain rfl := Option.some.inj ((start?_eq_some_of_slot here).symm.trans starting)
        exact absurd inTime (Nat.not_le.mpr (unfinished duration ends))
  | serving index now due starts seen duration early ends inTime serving =>
      rw [pollFrom_of_serving rfl early ends inTime serving] at failed
      contradiction
  | notServing index now due starts seen duration early ends inTime other inductionHypothesis =>
      rw [pollFrom_of_not_serving rfl early ends inTime other] at failed ⊢
      rcases inductionHypothesis (slot?_succ_of_not_serving here ends other) failed with
        found | ⟨noneLater, detailEq⟩
      · exact .inl found
      · -- Nothing ends after this probe, and both alternatives keep what it said.
        refine .inl ⟨index, ?_, fun later => noneLater later, ?_⟩
        · exact ⟨_, duration, start?_eq_some_of_slot here, early, ends, inTime⟩
        · rw [detailEq]
          exact ite_self _

end Detail

namespace ClockReading

variable (began : ClockReading) {timeout : Duration}

theorem deadline_le (timeout : Duration) : began.deadline timeout ≤ timeout.nanoseconds := by
  have farFuture_lt := began.farFuture_lt
  unfold deadline
  split
  case isTrue => exact Nat.le_refl _
  case isFalse untold =>
    unfold Tells at untold
    omega

theorem deadline_pos (someTime : 0 < timeout.nanoseconds) : 0 < began.deadline timeout := by
  unfold deadline
  split
  case isTrue => exact someTime
  case isFalse => decide

end ClockReading

namespace Gate

variable {gate : Gate} {deadline : Nat} {script : ProbeScript}

theorem poll_starts_head? (soon : 0 < deadline) :
    (gate.poll deadline script).starts.head? = some 0 := by
  rw [List.head?_eq_getElem?, getElem?_poll_starts]
  exact ⟨rfl, soon⟩

theorem poll_starts_eq_nil_iff :
    (gate.poll deadline script).starts = [] ↔ deadline = 0 := by
  constructor
  · intro noStarts
    by_contra someTime
    have first : (gate.poll deadline script).starts.head? = some 0 :=
      poll_starts_head? (Nat.pos_of_ne_zero someTime)
    rw [noStarts] at first
    contradiction
  · intro atOnce
    rw [List.eq_nil_iff_forall_not_mem]
    intro started member
    obtain ⟨index, found⟩ := List.mem_iff_getElem?.mp member
    have early := ((getElem?_poll_starts index started).mp found).2
    omega

theorem mul_length_poll_starts_le :
    (gate.poll deadline script).starts.length * gate.interval.nanoseconds ≤
      deadline + (gate.interval.nanoseconds - 1) := by
  cases count : (gate.poll deadline script).starts.length with
  | zero =>
      rw [Nat.zero_mul]
      exact Nat.zero_le _
  | succ last =>
      have within : last < (gate.poll deadline script).starts.length := by omega
      obtain ⟨starting, early⟩ :=
        (getElem?_poll_starts last _).mp (List.getElem?_eq_getElem within)
      have spaced := mul_interval_le_start starting
      have positive := gate.interval_positive
      rw [Nat.succ_mul]
      omega

/-- A probe that follows another one starts no earlier than that one ends, which
did not find a serving service. -/
theorem poll_one_at_a_time
    {index following : Nat}
    (found : (gate.poll deadline script).starts[index + 1]? = some following) :
    ∃ started duration,
      (gate.poll deadline script).starts[index]? = some started ∧
        (script index).duration = some duration ∧
        (script index).answer ≠ .ok .serving ∧ started + duration ≤ following := by
  obtain ⟨starting, early⟩ := (getElem?_poll_starts _ _).mp found
  obtain ⟨slot, slotFound, -⟩ := Option.map_eq_some_iff.mp starting
  obtain ⟨earlier, earlierFound, -⟩ := slot?_succ_eq_some_iff.mp slotFound
  obtain ⟨notServing, duration, ends, inTime⟩ :=
    end_le_start (Nat.lt_succ_self index) earlierFound starting
  refine ⟨earlier.start, duration, ?_, ends, notServing, inTime⟩
  refine (getElem?_poll_starts _ _).mpr ⟨start?_eq_some_of_slot earlierFound, ?_⟩
  exact (Nat.le_add_right _ _).trans_lt (inTime.trans_lt early)

theorem endsInTime_iff (gate : Gate) {index : Nat} :
    EndsInTime gate.interval.nanoseconds deadline script index ↔
      ∃ started duration,
        (gate.poll deadline script).starts[index]? = some started ∧
          (script index).duration = some duration ∧
          started + duration ≤ deadline := by
  simp only [getElem?_poll_starts, EndsInTime, and_assoc]

end Gate

/-- One service is probed at once, unless there is no time at all, and never more
often than intervals begin before the deadline. A probe starts before the
deadline and after the end of the one before, which did not find the service
serving; and the wait is over by the deadline. If it fails, its detail is the
word of the last probe that ended by the deadline. If none ended it says so, and
it is absent where none was started. -/
theorem Gate.poll_probes_and_detail
    (interval timeout : Duration)
    (began : ClockReading)
    (script : ProbeScript) :
    let period := max 1000000 interval.nanoseconds
    let deadline :=
      if began.nanoseconds + timeout.nanoseconds < 9223372036854775808 * 1000000000 then
        timeout.nanoseconds
      else 30 * 365 * 86400 * 1000000000
    let wait := (Gate.ofInterval interval).poll (began.deadline timeout) script
    let ended := fun index => ∃ started duration,
      wait.starts[index]? = some started ∧ (script index).duration = some duration ∧
        started + duration ≤ deadline
    (0 < timeout.nanoseconds → wait.starts.head? = some 0) ∧
    wait.starts.length ≤ (timeout.nanoseconds + (period - 1)) / period ∧
    (∀ started ∈ wait.starts, started < deadline) ∧
    (∀ index following, wait.starts[index + 1]? = some following →
      ∃ started duration,
        wait.starts[index]? = some started ∧ (script index).duration = some duration ∧
          (script index).answer ≠ .ok .serving ∧ started + duration ≤ following) ∧
    wait.finish ≤ deadline ∧
    (wait.healthy = false →
      ((∃ index, ended index) →
        ∃ last, ended last ∧ (∀ later, last < later → ¬ ended later) ∧
          wait.detail = some (probeDetail (script last).answer)) ∧
      (wait.starts ≠ [] → (∀ index, ¬ ended index) →
        wait.detail = some "probe did not complete") ∧
      (wait.starts = [] → wait.detail = none)) := by
  intro period deadline wait ended
  have within : deadline ≤ timeout.nanoseconds := began.deadline_le timeout
  have endedIff : ∀ index, ended index ↔ EndsInTime period deadline script index :=
    fun index => (Gate.endsInTime_iff (Gate.ofInterval interval)).symm
  refine ⟨?_, ?_, ?_, ?_, Gate.poll_finish_le, ?_⟩
  · intro someTime
    exact Gate.poll_starts_head? (began.deadline_pos someTime)
  · have positive : 0 < period := Gate.interval_positive (Gate.ofInterval interval)
    rw [Nat.le_div_iff_mul_le positive]
    exact Gate.mul_length_poll_starts_le.trans (Nat.add_le_add_right within _)
  · intro started member
    obtain ⟨index, found⟩ := List.mem_iff_getElem?.mp member
    exact ((Gate.getElem?_poll_starts index started).mp found).2
  · intro index following found
    exact Gate.poll_one_at_a_time found
  · intro failed
    simp only [endedIff]
    obtain ⟨last, ends, noneLater, detailEq⟩ | ⟨noneEnds, detailEq⟩ := pollFrom_detail rfl failed
    · refine ⟨fun _ => ⟨last, ends, noneLater, detailEq⟩, ?_, ?_⟩
      · exact fun _ noneEnds => absurd ends (noneEnds last)
      · intro noneStarted
        obtain ⟨started, _, found, -⟩ := (endedIff last).mpr ends
        rw [noneStarted] at found
        contradiction
    · refine ⟨?_, ?_, ?_⟩
      · rintro ⟨index, ends⟩
        exact absurd ends (noneEnds index (Nat.zero_le _))
      · intro someStarted _
        have soon : 0 < deadline :=
          Nat.pos_of_ne_zero fun atOnce => someStarted (Gate.poll_starts_eq_nil_iff.mpr atOnce)
        exact detailEq.trans (if_pos soon)
      · intro noneStarted
        have atOnce : deadline = 0 := Gate.poll_starts_eq_nil_iff.mp noneStarted
        exact detailEq.trans (if_neg (Nat.not_lt.mpr atOnce.le))

end Precis.Service

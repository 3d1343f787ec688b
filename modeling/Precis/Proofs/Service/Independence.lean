import Precis.Proofs.Service.Interleaving
import Precis.Proofs.Service.Verdict

/-!
Contract: services of a pool do not influence each other at the gate.

This module owns the comparison of two waits for pools that have a service in
common, however the steps of their pollers fall, the length of a wait, and what
a longer timeout does. A longer timeout is a later deadline, unless its own
deadline cannot be told.
-/

namespace Precis.Service

/-! ### The latest of several moments -/

theorem foldl_max_spec (moments : List Nat) (first : Nat) :
    first ≤ moments.foldl max first ∧
      (∀ moment ∈ moments, moment ≤ moments.foldl max first) ∧
      (moments.foldl max first = first ∨ moments.foldl max first ∈ moments) := by
  induction moments generalizing first with
  | nil => simp
  | cons head tail inductionHypothesis =>
      obtain ⟨firstLe, tailLe, latest⟩ := inductionHypothesis (max first head)
      rw [List.foldl_cons]
      refine ⟨(Nat.le_max_left _ _).trans firstLe, ?_, ?_⟩
      · intro moment member
        rcases List.mem_cons.mp member with rfl | inTail
        · exact (Nat.le_max_right _ _).trans firstLe
        · exact tailLe moment inTail
      · rcases latest with same | inTail
        · rw [same]
          rcases Nat.le_total first head with headLatest | firstLatest
          · rw [Nat.max_eq_right headLatest]
            exact .inr List.mem_cons_self
          · exact .inl (Nat.max_eq_left firstLatest)
        · exact .inr (List.mem_cons_of_mem _ inTail)

namespace Gate

variable {gate : Gate} {timeout : Duration} {watched : List Watched} {began : ClockReading}

theorem finish_le_elapsed
    {wait : Wait}
    (member : wait ∈ gate.waits timeout watched began) :
    wait.finish ≤ (gate.await timeout watched began).elapsed :=
  (foldl_max_spec _ 0).2.1 _ (List.mem_map_of_mem member)

theorem mem_waits_iff {wait : Wait} :
    wait ∈ gate.waits timeout watched began ↔
      ∃ each ∈ watched, gate.poll (began.deadline timeout) each.script = wait := by
  unfold waits
  exact List.mem_map

theorem elapsed_cases :
    watched = [] ∧ (gate.await timeout watched began).elapsed = 0 ∨
      ∃ wait ∈ gate.waits timeout watched began,
        wait.finish = (gate.await timeout watched began).elapsed := by
  rcases (foldl_max_spec ((gate.waits timeout watched began).map Wait.finish) 0).2.2 with
    atOnce | isFinish
  · cases watched with
    | nil => exact .inl ⟨rfl, rfl⟩
    | cons first rest =>
        have member : gate.poll (began.deadline timeout) first.script ∈
            gate.waits timeout (first :: rest) began :=
          mem_waits_iff.mpr ⟨first, List.mem_cons_self, rfl⟩
        have bound := finish_le_elapsed member
        have elapsedEq : (gate.await timeout (first :: rest) began).elapsed = 0 := atOnce
        exact .inr ⟨_, member, by omega⟩
  · exact .inr (List.mem_map.mp isFinish)

theorem elapsed_le : (gate.await timeout watched began).elapsed ≤ began.deadline timeout := by
  rcases elapsed_cases with ⟨-, atOnce⟩ | ⟨wait, member, finishEq⟩
  · rw [atOnce]
    exact Nat.zero_le _
  · obtain ⟨each, -, rfl⟩ := mem_waits_iff.mp member
    rw [← finishEq]
    exact poll_finish_le

/-- Where a service fails, the whole wait ends at the deadline. -/
theorem elapsed_eq_of_failed (failed : (gate.await timeout watched began).result ≠ .ok ()) :
    (gate.await timeout watched began).elapsed = began.deadline timeout := by
  rw [ne_eq, await_ok_iff] at failed
  push Not at failed
  obtain ⟨each, member, unready⟩ := failed
  have unhealthy : (gate.poll (began.deadline timeout) each.script).healthy = false := by
    simpa [← poll_healthy_iff] using unready
  refine Nat.le_antisymm elapsed_le ?_
  rw [← poll_finish_eq unhealthy]
  exact finish_le_elapsed (mem_waits_iff.mpr ⟨each, member, rfl⟩)

end Gate

/-! ### Longer timeouts -/

/-- A longer timeout has no earlier deadline, unless its own deadline cannot be
told while that of the shorter one can and is later than the one that is taken instead. -/
theorem ClockReading.deadline_le_deadline
    {began : ClockReading}
    {timeout longer : Duration}
    (le : timeout.nanoseconds ≤ longer.nanoseconds)
    (told : began.Tells longer ∨ ¬ began.Tells timeout ∨
      timeout.nanoseconds ≤ farFuture.nanoseconds) :
    began.deadline timeout ≤ began.deadline longer := by
  unfold deadline
  split <;> split <;> unfold Tells at * <;> omega

theorem Gate.Serves.mono
    {gate : Gate}
    {deadline later : Nat}
    {script : ProbeScript}
    (le : deadline ≤ later)
    (serves : gate.Serves deadline script) :
    gate.Serves later script := by
  obtain ⟨index, started, duration, starts, early, ends, serving, inTime⟩ := serves
  exact ⟨index, started, duration, starts, early.trans_le le, ends, serving, inTime.trans le⟩

/-! ### Waits for pools -/

namespace Pool

variable {κ : Type} {pool : Pool κ}

/-- A place in the snapshot of a pool. -/
abbrev Place (pool : Pool κ) := Fin pool.connections.length

def scripts
    (pool : Pool κ)
    (scriptOf : (name : String) → Held κ → ProbeScript)
    (place : pool.Place) : ProbeScript :=
  scriptOf (pool.connections.get place).1 (pool.connections.get place).2

variable {gate : Gate} {timeout : Duration} {began : ClockReading} {serviceOf : κ → String}
variable {scriptOf : String → Held κ → ProbeScript}

theorem waits_watched :
    gate.waits timeout (pool.watched serviceOf scriptOf) began =
      List.ofFn fun place => gate.poll (began.deadline timeout) (pool.scripts scriptOf place) := by
  refine List.ext_getElem (by simp [Gate.waits, watched]) fun place _ _ => ?_
  simp [Gate.waits, watched, scripts]

theorem poll_mem_waits (place : pool.Place) :
    gate.poll (began.deadline timeout) (pool.scripts scriptOf place) ∈
      gate.waits timeout (pool.watched serviceOf scriptOf) began := by
  rw [waits_watched, List.mem_ofFn]
  exact ⟨place, rfl⟩

section Runs

variable {state : GateState (began.deadline timeout) pool.Place}
  (runs : Runs gate.interval.nanoseconds (pool.scripts scriptOf) state)

include runs

theorem ended_eq_poll
    {place : pool.Place}
    {wait : Wait}
    (ended : state.pollers place = .ended wait) :
    wait = gate.poll (began.deadline timeout) (pool.scripts scriptOf place) :=
  runs.follows.ended_eq ended

theorem pollers_eq_of_done (done : state.Done) (place : pool.Place) :
    state.pollers place =
      .ended (gate.poll (began.deadline timeout) (pool.scripts scriptOf place)) := by
  obtain ⟨wait, ended⟩ := done place
  rw [ended, ended_eq_poll runs ended]

/-- The clock stops where the last service ends. -/
theorem moment_eq_of_done (done : state.Done) :
    state.moment = (gate.await timeout (pool.watched serviceOf scriptOf) began).elapsed := by
  have follows : Follows _ gate.interval_positive (pool.scripts scriptOf) state := runs.follows
  apply Nat.le_antisymm
  -- Some poller made the last step, and the clock has stood still since.
  · rcases follows.latest with atOnce | ⟨place, latest⟩
    · rw [atOnce]
      exact Nat.zero_le _
    · rw [← latest _ (pollers_eq_of_done runs done place)]
      exact Gate.finish_le_elapsed (poll_mem_waits place)
  · rcases Gate.elapsed_cases with ⟨-, atOnce⟩ | ⟨wait, member, finishEq⟩
    · rw [atOnce]
      exact Nat.zero_le _
    · rw [waits_watched, List.mem_ofFn] at member
      obtain ⟨place, rfl⟩ := member
      rw [← finishEq]
      exact follows.past place _ (pollers_eq_of_done runs done place)

end Runs

end Pool

/-- Two pools are waited for, each with a poller for every service, and the
steps of these fall in any order that the clock allows. Each wait can be
finished, and then it is what the gate makes of it. Services that behave alike
come to the same wait in both, with the same verdict, detail and probes, whatever
the others do. A wait takes as long as that for its last service, no longer than
the deadline, and just as long where a service fails. A longer timeout keeps a
success, if its deadline can be told, or the shorter one cannot, or reaches no
further than the one that is taken where none can be told. -/
theorem Gate.services_independent
    {κ ρ : Type}
    (gate : Gate)
    (timeout : Duration)
    (began : ClockReading)
    (pool : Pool κ)
    (serviceOf : κ → String)
    (scriptOf : String → Held κ → ProbeScript)
    (otherPool : Pool ρ)
    (otherScriptOf : String → Held ρ → ProbeScript) :
    let interval := gate.interval.nanoseconds
    let deadline := began.deadline timeout
    let scripts := pool.scripts scriptOf
    let otherScripts := otherPool.scripts otherScriptOf
    let watched := pool.watched serviceOf scriptOf
    let verdict := gate.await timeout watched began
    (∀ state : GateState deadline pool.Place, Runs interval scripts state →
      ∃ final, Relation.ReflTransGen (Moves interval scripts) state final ∧ final.Done) ∧
    (∀ final : GateState deadline pool.Place, Runs interval scripts final → final.Done →
      List.ofFn final.pollers = (gate.waits timeout watched began).map .ended ∧
        final.moment = verdict.elapsed) ∧
    (∀ (state : GateState deadline pool.Place) (otherState : GateState deadline otherPool.Place),
      Runs interval scripts state → Runs interval otherScripts otherState →
        ∀ place otherPlace wait otherWait, scripts place = otherScripts otherPlace →
          state.pollers place = .ended wait → otherState.pollers otherPlace = .ended otherWait →
            wait = otherWait) ∧
    ((∀ wait ∈ gate.waits timeout watched began, wait.finish ≤ verdict.elapsed) ∧
      (watched = [] ∧ verdict.elapsed = 0 ∨
        ∃ wait ∈ gate.waits timeout watched began, wait.finish = verdict.elapsed) ∧
      verdict.elapsed ≤ deadline ∧
      (verdict.result ≠ .ok () → verdict.elapsed = deadline)) ∧
    (∀ longer : Duration, timeout.nanoseconds ≤ longer.nanoseconds →
      (began.Tells longer ∨ ¬ began.Tells timeout ∨
        timeout.nanoseconds ≤ farFuture.nanoseconds) →
          verdict.result = .ok () → (gate.await longer watched began).result = .ok ()) := by
  intro interval deadline scripts otherScripts watched verdict
  refine ⟨?_, ?_, ?_, ⟨?_, elapsed_cases, elapsed_le, elapsed_eq_of_failed⟩, ?_⟩
  · intro state _
    exact exists_done gate.interval_positive state
  · intro final runs done
    refine ⟨?_, Pool.moment_eq_of_done runs done⟩
    rw [Pool.waits_watched, List.map_ofFn]
    exact congrArg List.ofFn (funext (Pool.pollers_eq_of_done runs done))
  · intro state otherState runs otherRuns place otherPlace wait otherWait same ended otherEnded
    rw [Pool.ended_eq_poll runs ended, Pool.ended_eq_poll otherRuns otherEnded]
    exact congrArg (gate.poll deadline) same
  · exact fun wait member => finish_le_elapsed member
  · intro longer le told ready
    have later := ClockReading.deadline_le_deadline le told
    rw [await_ok_iff] at ready ⊢
    exact fun each member => (ready each member).mono later

/-! ### A deadline that cannot be told -/

def loneService : Pool String :=
  (Pool.build (fun _ name _ => .ok name) [⟨"a", ":1", .todo⟩]).pool

/-- The second probe finds the service serving. -/
def secondServes (_ : String) (_ : Held String) : ProbeScript :=
  fun index => ⟨some 0, .ok (if index = 0 then .notServing else .serving)⟩

/-- A gate that probes once in 11000 days, a little more than thirty years. -/
def rareGate : Gate :=
  .ofInterval (.ofSeconds (86400 * 11000))

/-- With a timeout of 11060 days the wait succeeds. With the longest timeout of
all it fails, after thirty years. -/
theorem Gate.longest_timeout_fails :
    (Duration.ofSeconds (86400 * 11060)).nanoseconds ≤
      (Duration.ofSeconds 18446744073709551615).nanoseconds ∧
    (rareGate.await (.ofSeconds (86400 * 11060)) (loneService.watched id secondServes)).result =
      .ok () ∧
    (rareGate.await (.ofSeconds 18446744073709551615)
      (loneService.watched id secondServes)).result ≠ .ok () := by
  have watchedEq : loneService.watched id secondServes =
      [⟨"a", secondServes "a" (.opened "a")⟩] := rfl
  have second : slot? rareGate.interval.nanoseconds (secondServes "a" (.opened "a")) 1 =
      some ⟨0, 950400000 * 1000000000⟩ := rfl
  rw [watchedEq, ne_eq, await_ok_iff, await_ok_iff]
  simp only [List.mem_singleton, forall_eq]
  refine ⟨by decide, ⟨1, _, 0, start?_eq_some_of_slot second, by decide, rfl, rfl, by decide⟩, ?_⟩
  rintro ⟨index, started, duration, starts, early, -, serving, -⟩
  cases index with
  | zero => cases serving
  | succ earlier =>
      have late := start_le_start (Nat.le_add_left 1 earlier) second starts
      have deadlineEq : ClockReading.zero.deadline (.ofSeconds 18446744073709551615) =
          946080000 * 1000000000 := by
        decide
      have afterwards : (Slot.mk 0 (950400000 * 1000000000)).start = 950400000 * 1000000000 := by
        decide
      omega

end Precis.Service

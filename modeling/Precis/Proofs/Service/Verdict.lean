import Precis.Proofs.Service.Pool
import Precis.Proofs.Service.Schedule

/-!
Contract: what the gate says of a pool.

This module owns the verdict of a wait. It is success exactly if every service
of the pool is ready in time, and otherwise it names the services that are not,
each once, in the ascending order of their names.
-/

namespace Precis.Service

namespace Gate

variable {gate : Gate} {deadline : Nat}

/-- The verdicts on the services that are not ready. -/
def failures (gate : Gate) (deadline : Nat) (watched : List Watched) : List Outcome :=
  (watched.filter fun each => !(gate.poll deadline each.script).healthy).map fun each =>
    each.outcome (gate.poll deadline each.script)

section Await

variable {timeout : Duration} {watched : List Watched} {began : ClockReading}

theorem await_result :
    (gate.await timeout watched began).result =
      if (gate.failures (began.deadline timeout) watched).isEmpty then .ok ()
      else .error (.unhealthy (gate.failures (began.deadline timeout) watched)) := by
  have outcomes : List.zipWith Watched.outcome watched (gate.waits timeout watched began) =
      watched.map fun each =>
        each.outcome (gate.poll (began.deadline timeout) each.script) := by
    rw [waits, List.zipWith_map_right, List.zipWith_self]
  have failed : (List.zipWith Watched.outcome watched (gate.waits timeout watched began)).filter
      (fun outcome => !outcome.healthy) = gate.failures (began.deadline timeout) watched := by
    rw [outcomes, List.filter_map]
    rfl
  unfold await
  simp only [failed]

theorem failures_isEmpty_iff :
    (gate.failures deadline watched).isEmpty = true ↔
      ∀ each ∈ watched, gate.Serves deadline each.script := by
  simp only [failures, List.isEmpty_iff, List.map_eq_nil_iff, List.filter_eq_nil_iff,
    Bool.not_eq_true', Bool.not_eq_false, poll_healthy_iff]

theorem await_ok_iff :
    (gate.await timeout watched began).result = .ok () ↔
      ∀ each ∈ watched, gate.Serves (began.deadline timeout) each.script := by
  rw [await_result, ← failures_isEmpty_iff]
  split
  case isTrue noFailure => exact iff_of_true rfl noFailure
  case isFalse someFailure => exact iff_of_false nofun someFailure

theorem await_eq_failures (failed : (gate.await timeout watched began).result ≠ .ok ()) :
    (gate.await timeout watched began).result =
      .error (.unhealthy (gate.failures (began.deadline timeout) watched)) := by
  rw [ne_eq, await_ok_iff, ← failures_isEmpty_iff] at failed
  rw [await_result, if_neg failed]

end Await

theorem poll_finish_of_sameCourse
    {script other : ProbeScript}
    (same : SameCourse script other) :
    (gate.poll deadline other).finish = (gate.poll deadline script).finish :=
  (same.pollFrom_eq none).1

theorem poll_healthy_of_sameCourse
    {script other : ProbeScript}
    (same : SameCourse script other) :
    (gate.poll deadline other).healthy = (gate.poll deadline script).healthy :=
  (same.pollFrom_eq none).2.2

end Gate

namespace Pool

variable {κ : Type} {pool : Pool κ} {gate : Gate} {deadline : Nat}
  {serviceOf : κ → String} {scriptOf : String → Held κ → ProbeScript}

/-- The services of a pool that are not ready in time. -/
def unready
    (pool : Pool κ)
    (gate : Gate)
    (deadline : Nat)
    (scriptOf : String → Held κ → ProbeScript) : List (String × Held κ) :=
  pool.connections.filter fun found => ¬ gate.Serves deadline (scriptOf found.1 found.2)

theorem failures_watched :
    gate.failures deadline (pool.watched serviceOf scriptOf) =
      (pool.unready gate deadline scriptOf).map fun found =>
        { service := serviceOf found.2.connection
          healthy := false
          detail := (gate.poll deadline (scriptOf found.1 found.2)).detail } := by
  have chosen : pool.unready gate deadline scriptOf = pool.connections.filter fun found =>
      !(gate.poll deadline (scriptOf found.1 found.2)).healthy := by
    refine List.filter_congr fun found _ => ?_
    simp [← Gate.poll_healthy_iff]
  rw [Gate.failures, watched, List.filter_map, List.map_map, chosen]
  refine List.map_congr_left fun found member => ?_
  have failed : (gate.poll deadline (scriptOf found.1 found.2)).healthy = false := by
    simpa using (List.mem_filter.mp member).2
  exact congrArg (Outcome.mk _ · _) failed

theorem WellFormed.mem_unready_iff
    (wellFormed : pool.WellFormed)
    {name : String}
    {held : Held κ} :
    (name, held) ∈ pool.unready gate deadline scriptOf ↔
      pool.connection? name = some held ∧ ¬ gate.Serves deadline (scriptOf name held) := by
  rw [unready, List.mem_filter, wellFormed.mem_connections_iff, decide_eq_true_iff]

theorem WellFormed.unready_ascending (wellFormed : pool.WellFormed) :
    ((pool.unready gate deadline scriptOf).map Prod.fst).Pairwise (· < ·) := by
  have names := wellFormed.names_ascending
  rw [← wellFormed.map_fst_connections] at names
  exact names.sublist (List.filter_sublist.map Prod.fst)

theorem WellFormed.forall_watched_iff
    (wellFormed : pool.WellFormed)
    {holds : ProbeScript → Prop} :
    (∀ each ∈ pool.watched serviceOf scriptOf, holds each.script) ↔
      ∀ name held, pool.connection? name = some held → holds (scriptOf name held) := by
  simp only [watched, List.forall_mem_map, ← wellFormed.mem_connections_iff, Prod.forall]

theorem elapsed_of_sameCourse
    {timeout : Duration}
    {began : ClockReading}
    {otherOf : String → Held κ → ProbeScript}
    (same : ∀ name held, SameCourse (scriptOf name held) (otherOf name held)) :
    (gate.await timeout (pool.watched serviceOf otherOf) began).elapsed =
      (gate.await timeout (pool.watched serviceOf scriptOf) began).elapsed := by
  unfold Gate.await Gate.waits watched
  simp only [List.map_map]
  refine congrArg (List.foldl max 0) (List.map_congr_left fun found _ => ?_)
  exact Gate.poll_finish_of_sameCourse (same found.1 found.2)

end Pool

/-- A pool is waited for. The wait succeeds exactly if every service is ready
before the common deadline, and otherwise it names those that are not, each
once, in the order of the names in the pool. The probes of a service are started
as its schedule says, up to the deadline, and what they say beyond that the
service serves decides nothing. -/
theorem Gate.await_verdict
    {κ : Type}
    (gate : Gate)
    (timeout : Duration)
    (began : ClockReading)
    {pool : Pool κ}
    (wellFormed : pool.WellFormed)
    (serviceOf : κ → String)
    (scriptOf : String → Held κ → ProbeScript) :
    let verdict := gate.await timeout (pool.watched serviceOf scriptOf) began
    let deadline :=
      if began.nanoseconds + timeout.nanoseconds < 9223372036854775808 * 1000000000 then
        timeout.nanoseconds
      else 30 * 365 * 86400 * 1000000000
    let ready := fun name held =>
      ∃ index, ServesAt gate.interval.nanoseconds deadline (scriptOf name held) index
    (verdict.result = .ok () ↔
      ∀ name held, pool.connection? name = some held → ready name held) ∧
    (verdict.result ≠ .ok () →
      ∃ unready : List (String × Held κ),
        (unready.map Prod.fst).Pairwise (· < ·) ∧
        (∀ name held, (name, held) ∈ unready ↔
          pool.connection? name = some held ∧ ¬ ready name held) ∧
        verdict.result = .error (.unhealthy (unready.map fun found =>
          { service := serviceOf found.2.connection
            healthy := false
            detail := (gate.poll deadline (scriptOf found.1 found.2)).detail }))) ∧
    (∀ name held index started,
      (gate.poll deadline (scriptOf name held)).starts[index]? = some started ↔
        start? gate.interval.nanoseconds (scriptOf name held) index = some started ∧
          started < deadline) ∧
    (∀ otherOf : String → Held κ → ProbeScript,
      (∀ name held, SameCourse (scriptOf name held) (otherOf name held)) →
        let other := gate.await timeout (pool.watched serviceOf otherOf) began
        other.elapsed = verdict.elapsed ∧ (other.result = .ok () ↔ verdict.result = .ok ()) ∧
        ∀ name held, (gate.poll deadline (otherOf name held)).healthy =
          (gate.poll deadline (scriptOf name held)).healthy) := by
  intro verdict deadline ready
  refine ⟨?_, ?_, ?_, ?_⟩
  · exact Gate.await_ok_iff.trans wellFormed.forall_watched_iff
  · intro failed
    refine ⟨pool.unready gate deadline scriptOf, wellFormed.unready_ascending, ?_, ?_⟩
    · intro name held
      exact wellFormed.mem_unready_iff
    · rw [← Pool.failures_watched]
      exact Gate.await_eq_failures failed
  · intro name held index started
    exact Gate.getElem?_poll_starts index started
  · intro otherOf same other
    have healthy : ∀ name held,
        (gate.poll (began.deadline timeout) (otherOf name held)).healthy =
          (gate.poll (began.deadline timeout) (scriptOf name held)).healthy :=
      fun name held => Gate.poll_healthy_of_sameCourse (same name held)
    refine ⟨Pool.elapsed_of_sameCourse same, ?_, healthy⟩
    rw [Gate.await_ok_iff, Gate.await_ok_iff, wellFormed.forall_watched_iff,
      wellFormed.forall_watched_iff]
    simp only [← Gate.poll_healthy_iff, healthy]

/-- Two services, connected against the order of their names. -/
def lateAndSilent : Pool String :=
  (Pool.build (fun _ name _ => .ok name)
    [⟨"silent", ":1", .todo⟩, ⟨"late", ":2", .summary⟩]).pool

/-- One of the two begins to serve with its second probe, which takes half a
second, and the other never answers. -/
def lateOrSilent (name : String) (_ : Held String) : ProbeScript := fun index =>
  if name = "silent" then ⟨none, .ok .serving⟩
  else if index = 0 then ⟨some 0, .ok .notServing⟩
  else ⟨some 500000000, .ok .serving⟩

/-- The late service serves at the very deadline of one second, and the other fails. -/
theorem Gate.await_verdict_at_the_deadline :
    lateAndSilent.WellFormed ∧
    ∃ unready : List (String × Held String),
      ("silent", Held.opened "silent") ∈ unready ∧ ("late", Held.opened "late") ∉ unready ∧
      (standard.await (.ofSeconds 1) (lateAndSilent.watched id lateOrSilent)).result =
        .error (.unhealthy (unready.map fun found =>
          { service := found.2.connection
            healthy := false
            detail := (standard.poll 1000000000 (lateOrSilent found.1 found.2)).detail })) := by
  have wellFormed : lateAndSilent.WellFormed := .build _ _
  obtain ⟨okIff, otherwise, -⟩ :=
    Gate.standard.await_verdict (.ofSeconds 1) .zero wellFormed id lateOrSilent
  have silentFound : lateAndSilent.connection? "silent" = some (Held.opened "silent") := by decide
  have silentNever : ∀ deadline, ¬ ∃ index, ServesAt Gate.standard.interval.nanoseconds deadline
      (lateOrSilent "silent" (Held.opened "silent")) index := by
    rintro deadline ⟨index, started, duration, -, -, ends, -⟩
    cases ends
  have lateServes : ServesAt Gate.standard.interval.nanoseconds 1000000000
      (lateOrSilent "late" (Held.opened "late")) 1 :=
    ⟨500000000, 500000000, by decide, by decide, by decide, rfl, by decide⟩
  obtain ⟨unready, -, unreadyIff, result⟩ :=
    otherwise fun ok => silentNever _ (okIff.mp ok _ _ silentFound)
  refine ⟨wellFormed, unready, ?_, ?_, result⟩
  · exact (unreadyIff _ _).mpr ⟨silentFound, silentNever _⟩
  · exact fun member => ((unreadyIff _ _).mp member).2 ⟨1, lateServes⟩

end Precis.Service

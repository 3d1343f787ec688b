import Precis.Proofs.Summary.Walk

/-!
Contract: what the ledger is charged for.

This module owns the two readings of a log that have to agree: the records that
were made, and the charges that its generations give rise to. They agree after
every run of requests, however each of them ended, and nothing else ever reaches
the ledger.
-/

namespace Precis.Summary

namespace Log

/-- The records that were made, oldest first. -/
def recorded : Log → List Usage.Record
  | [] => []
  | .record now cost :: before => recorded before ++ [⟨now, cost⟩]
  | _ :: before => recorded before

/-- The number that an input was last found to have, if it was ever counted. -/
def measured (input : String) : Log → Option UInt64
  | [] => none
  | .count call :: before =>
      match call.answer with
      | some (.ok tokens) => if call.input = input then some tokens else measured input before
      | _ => measured input before
  | _ :: before => measured input before

/-- What a generation is charged: nothing unless it brought content, else what
the provider reports, or the number that the input was last found to have. -/
def charge (call : Call Reply) (before : Log) : List (Option UInt64) :=
  match call.answer with
  | some (.ok reply) =>
      if reply.hasContent then [reply.usage <|> measured call.input before] else []
  | _ => []

/-- The charges for all generations, oldest first. -/
def charges : Log → List (Option UInt64)
  | [] => []
  | .generate call :: before => charges before ++ charge call before
  | _ :: before => charges before

/-- Each charge has its record, and each record its charge, in the same order. -/
def Balanced (log : Log) : Prop :=
  log.recorded.map (fun record => some record.cost) = log.charges

/-- An event that is no record leaves nothing new in the ledger. -/
theorem replay_records_suffix
    (ledger : Usage.Ledger)
    {event : Event}
    (before : Log)
    (recordless : ∀ now cost, event ≠ .record now cost) :
    (replay ledger (event :: before)).records <:+ (replay ledger before).records := by
  cases event with
  | check now cost verdict => exact Usage.Ledger.check_records_suffix _ _ _
  | record now cost => exact absurd rfl (recordless now cost)
  | create credential answer => exact List.suffix_refl _
  | count call => exact List.suffix_refl _
  | generate call => exact List.suffix_refl _
  | pause started ended => exact List.suffix_refl _

/-- A ledger holds the end of what it began with and of the records since. -/
theorem replay_records_suffix_recorded (ledger : Usage.Ledger) (log : Log) :
    (log.replay ledger).records <:+ ledger.records ++ log.recorded := by
  induction log with
  | nil =>
      rw [recorded, List.append_nil]
      exact List.suffix_refl _
  | cons event before inductionHypothesis =>
      cases event with
      | record now cost =>
          simp only [replay, recorded]
          rw [Usage.Ledger.record_records, ← List.append_assoc]
          have pruned := (replay ledger before).prune_records_suffix now
          obtain ⟨dropped, split⟩ := pruned.trans inductionHypothesis
          refine ⟨dropped, ?_⟩
          rw [← split, List.append_assoc]
      | create credential answer => exact inductionHypothesis
      | count call => exact inductionHypothesis
      | check now cost verdict =>
          exact (Usage.Ledger.check_records_suffix _ _ _).trans inductionHypothesis
      | generate call => exact inductionHypothesis
      | pause started ended => exact inductionHypothesis

end Log

namespace Summarizer

theorem balanced_of_prepare
    {summarizer : Summarizer}
    {model original : String}
    {session prepared : Session}
    (course : summarizer.Course (PrepareRule model original) session prepared)
    (balanced : session.log.Balanced) :
    prepared.log.Balanced := by
  refine course.invariant (P := fun session => session.log.Balanced) ?_ balanced
  intro before event after happens kept beforeBalanced
  rw [happens.log_eq]
  cases kept with
  | create credential answer => exact beforeBalanced
  | count call _ modelEq begins => exact beforeBalanced

/-- A generation whose answer is not charged leaves a log balanced. -/
theorem balanced_of_chargeless
    {call : Call Reply}
    {before : Log}
    (chargeless : Log.charge call before = [])
    (balanced : before.Balanced) :
    Log.Balanced (.generate call :: before) := by
  unfold Log.Balanced at balanced ⊢
  simp only [Log.recorded, Log.charges]
  rw [chargeless, List.append_nil]
  exact balanced

/-- The record after a generation is its charge. -/
theorem balanced_of_charged
    {call : Call Reply}
    {before : Log}
    {cost : UInt64}
    (now : Instant)
    (charged : Log.charge call before = [some cost])
    (balanced : before.Balanced) :
    Log.Balanced (.record now cost :: .generate call :: before) := by
  unfold Log.Balanced at balanced ⊢
  simp only [Log.recorded, Log.charges]
  rw [charged, List.map_append, balanced]
  rfl

theorem Generates.balanced
    {summarizer : Summarizer}
    {model input original : String}
    {limit tokens : UInt64}
    {prepared after : Session}
    {ended : Ended String}
    {counted : Call UInt64}
    {older : Log}
    (generates : summarizer.Generates model input tokens prepared ended after)
    (logEq : prepared.log = .count counted :: older)
    (measures : Measures model input original limit tokens counted)
    (balanced : prepared.log.Balanced) :
    after.log.Balanced := by
  have checked : (summarizer.check tokens prepared).2.log.Balanced := balanced
  cases generates with
  | refused verdict => exact checked
  | abandoned verdict placed modelEq inputEq unanswered =>
      exact balanced_of_chargeless (by simp [Log.charge, unanswered]) checked
  | failed verdict placed modelEq inputEq answered =>
      exact balanced_of_chargeless (by simp [Log.charge, answered]) checked
  | contentless verdict placed modelEq inputEq answered missing =>
      have contentless := Reply.hasContent_of_firstText_eq_error missing
      exact balanced_of_chargeless (by simp [Log.charge, answered, contentless]) checked
  | @recorded call reply text verdict placed modelEq inputEq answered found =>
      have content := Reply.hasContent_of_firstText found
      have measured : Log.measured call.input (summarizer.check tokens prepared).2.log =
          some tokens := by
        simp only [Summarizer.check, Log.measured]
        rw [logEq]
        simp [Log.measured, measures.answer_eq, measures.input_eq, inputEq]
      refine balanced_of_charged _ ?_ checked
      simp only [Log.charge, answered, content]
      rw [measured]
      cases reply.usage with
      | none => rfl
      | some total => rfl

theorem attempt_balanced
    (summarizer : Summarizer)
    (cancellation : Cancellation)
    (request : Request)
    (descriptor : Model.Descriptor)
    (session : Session)
    (balanced : session.log.Balanced) :
    (summarizer.attempt cancellation request descriptor session).2.log.Balanced := by
  cases summarizer.attempt_attempts cancellation request descriptor session with
  | stopped textless course => exact balanced_of_prepare course balanced
  | generated course logEq measures generates =>
      exact generates.balanced logEq measures (balanced_of_prepare course balanced)

theorem run_balanced
    (summarizer : Summarizer)
    (start : Session)
    (uses : List Use)
    (balanced : start.log.Balanced) :
    (summarizer.run start uses).log.Balanced := by
  refine (summarizer.run_stretches start uses).invariant
    (P := fun session => session.log.Balanced) ?_ ?_ balanced
  · intro cancellation request descriptor session
    exact summarizer.attempt_balanced cancellation request descriptor session
  · intro cancellation length session sessionBalanced
    obtain ⟨ended, later, pauseEq⟩ := session.pause_eq cancellation length
    rw [pauseEq]
    exact sessionBalanced

/-- After any run of requests, the ledger is the one that the log tells of. The
records that were made are, in order, the charges of the generations. An event
that is no record adds nothing to the ledger, and what it holds is the end of
what it began with and of those records. -/
theorem run_accounts (summarizer : Summarizer) (ledger : Usage.Ledger) (uses : List Use) :
    let final := summarizer.run (.start ledger) uses
    final.ledger = final.log.replay ledger ∧
      final.log.recorded.map (fun record => some record.cost) = final.log.charges ∧
      final.ledger.records <:+ ledger.records ++ final.log.recorded ∧
      ∀ event before, (∀ now cost, event ≠ .record now cost) →
        (Log.replay ledger (event :: before)).records <:+
          (Log.replay ledger before).records := by
  intro final
  have told : final.ledger = final.log.replay ledger :=
    (summarizer.run_course (.start ledger) uses).ledger_eq_replay rfl
  refine ⟨told, summarizer.run_balanced (.start ledger) uses rfl, ?_, ?_⟩
  · rw [told]
    exact Log.replay_records_suffix_recorded ledger final.log
  · intro event before recordless
    exact Log.replay_records_suffix ledger before recordless

end Summarizer

end Precis.Summary

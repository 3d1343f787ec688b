import Precis.Proofs.Summary.Interruption

/-!
Contract: one run beside the same run with another credential.

Owns what is left of a log once the credentials in it are concealed, and that
two summarizers that differ in their credentials only do the same, between
surroundings that look at no credential. `Same.bind` carries this from a step to
what follows it.

Does not own which surroundings look at no credential.
-/

namespace Precis.Summary

/-! ### Concealed credentials -/

/-- An event without the credential that it shows. -/
def Event.concealed : Event → Event
  | .create _ answer => .create "" answer
  | event => event

/-- A log without the credentials that it shows. -/
def Log.concealed (log : Log) : Log :=
  log.map Event.concealed

theorem Log.concealed_cons_eq
    {event otherEvent : Event}
    {log other : Log}
    (sameEvent : event.concealed = otherEvent.concealed)
    (same : log.concealed = other.concealed) :
    concealed (event :: log) = concealed (otherEvent :: other) :=
  congrArg₂ List.cons sameEvent same

/-- Something that depends on no credential of a log. -/
def Blind {α : Type} (look : Log → α) : Prop :=
  ∀ ⦃log other : Log⦄, log.concealed = other.concealed → look log = look other

/-- Sessions that differ in the credentials of their logs at most. -/
structure Session.Resembles (session other : Session) : Prop where
  ledger : session.ledger = other.ledger
  connected : session.connected = other.connected
  now : session.now = other.now
  log : session.log.concealed = other.log.concealed

/-- The same result, in sessions that resemble each other. -/
structure Same {α : Type} (one two : α × Session) : Prop where
  result : one.1 = two.1
  session : one.2.Resembles two.2

theorem Same.exists_eq
    {α : Type}
    {one two : α × Session}
    (same : Same one two) :
    ∃ result session other, one = (result, session) ∧ two = (result, other) ∧
      session.Resembles other := by
  obtain ⟨result, session⟩ := one
  obtain ⟨otherResult, other⟩ := two
  obtain ⟨sameResult, resembles⟩ := same
  obtain rfl : result = otherResult := sameResult
  exact ⟨result, session, other, rfl, rfl, resembles⟩

/-- A step and what follows it do the same if both do. -/
theorem Same.bind
    {α β : Type}
    {one two : α × Session}
    {afterOne afterTwo : α × Session → β × Session}
    (same : Same one two)
    (next : ∀ result {session other : Session}, session.Resembles other →
      Same (afterOne (result, session)) (afterTwo (result, other))) :
    Same (afterOne one) (afterTwo two) := by
  obtain ⟨result, session, other, rfl, rfl, resembles⟩ := same.exists_eq
  exact next result resembles

/-! ### Waits -/

section Waits

variable {cancellation : Cancellation} {session other : Session}
  (resembles : session.Resembles other) (blind : Blind cancellation)

include resembles

theorem Session.Resembles.note
    {event otherEvent : Event}
    (same : event.concealed = otherEvent.concealed) :
    (session.note event).Resembles (other.note otherEvent) where
  ledger := resembles.ledger
  connected := resembles.connected
  now := resembles.now
  log := Log.concealed_cons_eq same resembles.log

include blind

theorem Session.Resembles.isCancelledBy_eq (moment : Moment) :
    session.isCancelledBy cancellation moment = other.isCancelledBy cancellation moment := by
  unfold Session.isCancelledBy
  rw [blind resembles.log]

theorem Session.Resembles.breakOff_eq :
    session.breakOff cancellation = other.breakOff cancellation := by
  unfold Session.breakOff
  rw [blind resembles.log, resembles.now]

theorem call_same
    {α : Type}
    {event : Call α → Event}
    {answer otherAnswer : Log → Moment → (model input : String) → Answer α}
    (answers : ∀ ⦃log otherLog : Log⦄, log.concealed = otherLog.concealed →
      answer log = otherAnswer otherLog)
    (model input : String) :
    Same (session.call cancellation event answer model input)
      (other.call cancellation event otherAnswer model input) := by
  have given := answers resembles.log
  unfold Session.call
  simp only [given, resembles.now]
  have waiting (pending : Call α) :
      (session.note (event pending)).Resembles (other.note (event pending)) :=
    resembles.note rfl
  simp only [(waiting _).isCancelledBy_eq blind, (waiting _).breakOff_eq blind]
  split
  · exact ⟨rfl, resembles.ledger, resembles.connected, rfl, Log.concealed_cons_eq rfl resembles.log⟩
  · exact ⟨rfl, resembles.ledger, resembles.connected, rfl, Log.concealed_cons_eq rfl resembles.log⟩

theorem pause_same (length : Duration) :
    Same (session.pause cancellation length) (other.pause cancellation length) := by
  unfold Session.pause
  simp only [resembles.isCancelledBy_eq blind, resembles.breakOff_eq blind, resembles.now]
  split
  · exact ⟨rfl, resembles.ledger, resembles.connected, rfl, Log.concealed_cons_eq rfl resembles.log⟩
  · exact ⟨rfl, resembles.ledger, resembles.connected, rfl, Log.concealed_cons_eq rfl resembles.log⟩

end Waits

namespace Summarizer

/-- Summarizers that differ in their credentials at most, between surroundings
that answer the same as long as only credentials differ. -/
structure Resembles (one two : Summarizer) : Prop where
  keyed : one.credential?.isSome = two.credential?.isSome
  defaultCeiling : one.defaultCeiling = two.defaultCeiling
  backoff : one.backoff = two.backoff
  catalog : one.catalog = two.catalog
  create :
    ∀ ⦃log other : Log⦄, log.concealed = other.concealed → ∀ credential otherCredential,
      one.surroundings.create log credential = two.surroundings.create other otherCredential
  count :
    ∀ ⦃log other : Log⦄, log.concealed = other.concealed →
      one.surroundings.count log = two.surroundings.count other
  generate :
    ∀ ⦃log other : Log⦄, log.concealed = other.concealed →
      one.surroundings.generate log = two.surroundings.generate other
  clock :
    ∀ ⦃log other : Log⦄, log.concealed = other.concealed →
      one.surroundings.clock log = two.surroundings.clock other

section Steps

variable {one two : Summarizer} {session other : Session}
  (alike : one.Resembles two) (resembles : session.Resembles other)

include alike resembles

theorem connect_same (credential otherCredential : String) :
    Same (one.connect credential session) (two.connect otherCredential other) := by
  have answer := alike.create resembles.log credential otherCredential
  unfold connect
  rw [resembles.connected]
  by_cases connected : other.connected = true
  · rw [if_pos connected, if_pos connected]
    exact ⟨rfl, resembles⟩
  · rw [if_neg connected, if_neg connected]
    simp only [answer]
    cases two.surroundings.create other.log otherCredential with
    | error cause => exact ⟨rfl, resembles.note rfl⟩
    | ok made =>
        exact ⟨rfl, resembles.ledger, rfl, resembles.now, Log.concealed_cons_eq rfl resembles.log⟩

theorem check_same (cost : UInt64) : Same (one.check cost session) (two.check cost other) := by
  unfold check
  rw [alike.clock resembles.log, resembles.ledger]
  exact ⟨rfl, rfl, resembles.connected, resembles.now, Log.concealed_cons_eq rfl resembles.log⟩

theorem record_resembles (cost : UInt64) :
    (one.record cost session).Resembles (two.record cost other) := by
  unfold record
  rw [alike.clock resembles.log, resembles.ledger]
  exact ⟨rfl, resembles.connected, resembles.now, Log.concealed_cons_eq rfl resembles.log⟩

variable {cancellation : Cancellation} (blind : Blind cancellation)

include blind

theorem fit_same (model : String) (limit : UInt64) (input : String) :
    Same (one.fit cancellation model limit input session)
      (two.fit cancellation model limit input other) := by
  -- The induction is on the length of the input, as in the search itself.
  induction length : input.length using Nat.strongRecOn generalizing input session other with
  | _ length inductionHypothesis =>
      rw [fit_eq, fit_eq]
      refine (call_same resembles blind alike.count model input).bind ?_
      intro ended after otherAfter resemble
      rcases ended with _ | ⟨cause | tokens⟩
      · exact ⟨rfl, resemble⟩
      · exact ⟨rfl, resemble⟩
      · unfold afterCount
        simp only
        by_cases fits : tokens ≤ limit
        · rw [if_pos fits, if_pos fits]
          exact ⟨rfl, resemble⟩
        · rw [if_neg fits, if_neg fits]
          by_cases empty : input = ""
          · rw [dif_pos empty, dif_pos empty]
            exact ⟨rfl, resemble⟩
          · rw [dif_neg empty, dif_neg empty]
            have shorter := length_shrink_lt empty
            exact inductionHypothesis _ (by omega) resemble _ rfl

theorem generate_same (model input : String) (tokens : UInt64) :
    Same (one.generate cancellation model input tokens session)
      (two.generate cancellation model input tokens other) := by
  obtain ⟨outcome, checked, otherChecked, verdict, otherVerdict, resemble⟩ :=
    (check_same alike resembles tokens).exists_eq
  cases outcome with
  | error exceeded =>
      unfold generate
      rw [verdict, otherVerdict]
      exact ⟨rfl, resemble⟩
  | ok done =>
      rw [generate_eq verdict, generate_eq otherVerdict]
      refine (call_same resemble blind alike.generate model input).bind ?_
      intro ended after otherAfter called
      rcases ended with _ | ⟨cause | reply⟩
      · exact ⟨rfl, called⟩
      · exact ⟨rfl, called⟩
      · unfold afterCall
        simp only
        cases reply.firstText with
        | error cause => exact ⟨rfl, called⟩
        | ok text => exact ⟨rfl, record_resembles alike called _⟩

theorem attempt_same (request : Request) (descriptor : Model.Descriptor) :
    Same (one.attempt cancellation request descriptor session)
      (two.attempt cancellation request descriptor other) := by
  have keyed := alike.keyed
  cases isKey : one.credential? with
  | none =>
      rw [isKey] at keyed
      have unkeyed : two.credential? = none := Option.not_isSome_iff_eq_none.mp (by simp [← keyed])
      unfold attempt
      rw [isKey, unkeyed]
      exact ⟨rfl, resembles⟩
  | some credential =>
      rw [isKey] at keyed
      obtain ⟨otherCredential, isOther⟩ := Option.isSome_iff_exists.mp keyed.symm
      obtain ⟨outcome, connected, otherConnected, connection, otherConnection, resemble⟩ :=
        (connect_same alike resembles credential otherCredential).exists_eq
      cases outcome with
      | error cause =>
          unfold attempt
          simp only [isKey, isOther, connection, otherConnection]
          exact ⟨rfl, resemble⟩
      | ok done =>
          have limits : one.limitFor request descriptor = two.limitFor request descriptor := by
            unfold limitFor
            rw [alike.defaultCeiling]
          rw [attempt_eq isKey connection, attempt_eq isOther otherConnection, limits]
          refine (fit_same alike resemble blind _ _ _).bind ?_
          intro ended after otherAfter fitted
          rcases ended with _ | ⟨cause | ⟨input, tokens⟩⟩
          · exact ⟨rfl, fitted⟩
          · exact ⟨rfl, fitted⟩
          · exact generate_same alike fitted blind _ _ _

theorem walk_same (request : Request) (all remaining : List Model.Id) :
    Same (one.walk cancellation request all remaining session)
      (two.walk cancellation request all remaining other) := by
  induction remaining generalizing session other with
  | nil => exact ⟨rfl, resembles⟩
  | cons model rest inductionHypothesis =>
      rw [walk, walk, alike.catalog]
      cases two.catalog.descriptor? model with
      | none => exact ⟨rfl, resembles⟩
      | some descriptor =>
          obtain ⟨ended, after, otherAfter, attempted, otherAttempted, resemble⟩ :=
            (attempt_same alike resembles blind request descriptor).exists_eq
          simp only [resembles.isCancelledBy_eq blind, resembles.now, attempted, otherAttempted]
          split
          · exact ⟨rfl, resembles⟩
          · cases ended with
            | cancelled => exact ⟨rfl, resemble⟩
            | finished outcome =>
                cases concluded : walk.conclusion? model outcome with
                | some result =>
                    simp only [concluded]
                    exact ⟨rfl, resemble⟩
                | none =>
                    obtain ⟨waited, paused, otherPaused, pause, otherPause, further⟩ :=
                      (pause_same resemble blind two.backoff).exists_eq
                    simp only [concluded, alike.backoff, pause, otherPause]
                    by_cases last : rest.isEmpty = true
                    · rw [if_pos last, if_pos last]
                      exact ⟨rfl, resemble⟩
                    · rw [if_neg last, if_neg last]
                      cases waited with
                      | cancelled => exact ⟨rfl, further⟩
                      | finished done => exact inductionHypothesis further

theorem summarize_same (request : Request) :
    Same (one.summarize cancellation request session)
      (two.summarize cancellation request other) := by
  have candidates : one.candidates request = two.candidates request := by
    unfold Summarizer.candidates
    rw [alike.catalog]
  unfold summarize
  rw [alike.catalog, candidates]
  split
  · exact walk_same alike resembles blind request _ _
  · exact ⟨rfl, resembles⟩

end Steps

/-- What one request preserves, a run of requests preserves. -/
theorem run_resembles
    {one two : Summarizer}
    {session other : Session}
    (alike : one.Resembles two)
    (resembles : session.Resembles other)
    {uses : List Use}
    (blind : ∀ use ∈ uses, Blind use.cancellation) :
    (one.run session uses).Resembles (two.run other uses) := by
  induction uses using List.reverseRecOn with
  | nil => exact resembles
  | append_singleton earlier use inductionHypothesis =>
      rw [List.forall_mem_append, List.forall_mem_singleton] at blind
      rw [run_concat, run_concat]
      exact (summarize_same alike (inductionHypothesis blind.1) blind.2 use.request).session

end Summarizer

end Precis.Summary

import Precis.Proofs.Usage.Total
import Precis.Summary.Summarizer

/-!
Contract: what can happen to a summarizer, one event at a time.

This module owns `Happens`, which says of each event what it finds in a session
and what it leaves there, and `Course`, a sequence of events each of which keeps
a rule that may look at everything before it. Three facts about all courses
follow from one step: the log only grows, the ledger is the one that the log
tells of, and the rule holds at every place of the log that the course has added.
-/

namespace Precis.Summary

/-! ### Calls and pauses -/

/-- How a call ended. -/
def Call.outcome {α : Type} (call : Call α) : Ended α :=
  match call.answer with
  | some result => .finished result
  | none => .cancelled

/-- A call begins at the present moment and ends no earlier. If it was answered,
the answer is that of the surroundings, and it took the time they say. -/
structure Call.IsPlaced
    {α : Type}
    (call : Call α)
    (session : Session)
    (answer : Log → Moment → (model input : String) → Answer α) : Prop where
  started_eq : call.started = session.now
  le_ended : session.now ≤ call.ended
  answered :
    ∀ result, call.answer = some result →
      result = (answer session.log session.now call.model call.input).result ∧
        call.ended =
          session.now + (answer session.log session.now call.model call.input).delay

namespace Session

/-- The session after an event that lasted until a moment. -/
def elapse (session : Session) (event : Event) (moment : Moment) : Session :=
  { session with now := moment, log := event :: session.log }

theorem call_eq
    {α : Type}
    (session : Session)
    (cancellation : Cancellation)
    (event : Call α → Event)
    (answer : Log → Moment → (model input : String) → Answer α)
    (model input : String) :
    ∃ call : Call α, call.IsPlaced session answer ∧ call.model = model ∧ call.input = input ∧
      session.call cancellation event answer model input =
        (call.outcome, session.elapse (event call) call.ended) := by
  unfold Session.call
  simp only
  split
  · refine ⟨⟨model, input, session.now, _, none⟩, ⟨rfl, ?_, by simp⟩, rfl, rfl, rfl⟩
    exact Nat.le_max_left _ _
  · refine ⟨⟨model, input, session.now, _, some _⟩, ⟨rfl, ?_, ?_⟩, rfl, rfl, rfl⟩
    · exact Nat.le_add_right _ _
    · intro result same
      exact ⟨(Option.some.inj same).symm, rfl⟩

theorem pause_eq (session : Session) (cancellation : Cancellation) (length : Duration) :
    ∃ ended, session.now ≤ ended ∧
      (session.pause cancellation length).2 =
        session.elapse (.pause session.now ended) ended := by
  unfold Session.pause
  simp only
  split
  · exact ⟨_, Nat.le_max_left _ _, rfl⟩
  · exact ⟨_, Nat.le_add_right _ _, rfl⟩

/-- A pause is cut off, or comes to its end. -/
theorem pause_fst_cases (session : Session) (cancellation : Cancellation) (length : Duration) :
    (session.pause cancellation length).1 = .cancelled ∨
      (session.pause cancellation length).1 = .finished (.ok ()) := by
  unfold Session.pause
  simp only
  split
  · exact .inl rfl
  · exact .inr rfl

end Session

/-! ### Events -/

/-- The ledger that the events of a log leave. Only a check and a record touch it. -/
def Log.replay (ledger : Usage.Ledger) : Log → Usage.Ledger
  | [] => ledger
  | .check now cost _ :: before => ((Log.replay ledger before).check now cost).2
  | .record now cost :: before => (Log.replay ledger before).record now cost
  | _ :: before => Log.replay ledger before

namespace Summarizer

/-- What an event finds in a session, and what it leaves there. -/
inductive Happens (summarizer : Summarizer) (session : Session) : Event → Session → Prop where
  | create (credential : String) (unconnected : session.connected = false) :
      Happens summarizer session
        (.create credential (summarizer.surroundings.create session.log credential))
        { session with
          connected := (summarizer.surroundings.create session.log credential).isOk
          log :=
            .create credential (summarizer.surroundings.create session.log credential) ::
              session.log }
  | count
      (call : Call UInt64)
      (placed : call.IsPlaced session summarizer.surroundings.count) :
      Happens summarizer session (.count call) (session.elapse (.count call) call.ended)
  | check (cost : UInt64) :
      Happens summarizer session
        (.check (summarizer.surroundings.clock session.log) cost
          (session.ledger.check (summarizer.surroundings.clock session.log) cost).1)
        (summarizer.check cost session).2
  | generate
      (call : Call Reply)
      (placed : call.IsPlaced session summarizer.surroundings.generate) :
      Happens summarizer session (.generate call) (session.elapse (.generate call) call.ended)
  | record (cost : UInt64) :
      Happens summarizer session (.record (summarizer.surroundings.clock session.log) cost)
        (summarizer.record cost session)
  | pause (ended : Moment) (le_ended : session.now ≤ ended) :
      Happens summarizer session (.pause session.now ended)
        (session.elapse (.pause session.now ended) ended)

namespace Happens

variable {summarizer : Summarizer} {session after : Session} {event : Event}

theorem log_eq (happens : summarizer.Happens session event after) :
    after.log = event :: session.log := by
  cases happens <;> rfl

/-- An event acts on the ledger that it finds as its line in the log says. -/
theorem ledger_eq (happens : summarizer.Happens session event after) :
    after.ledger = Log.replay session.ledger [event] := by
  cases happens <;> rfl

/-- The verdict of a check is that of the ledger it finds. -/
theorem verdict_eq
    {now : Instant}
    {cost : UInt64}
    {verdict : Except Usage.Exceeded Unit}
    (happens : summarizer.Happens session (.check now cost verdict) after) :
    verdict = (session.ledger.check now cost).1 := by
  cases happens
  rfl

/-- One event changes the ledger as the log says. -/
theorem ledger_eq_replay
    {ledger : Usage.Ledger}
    (happens : summarizer.Happens session event after)
    (told : session.ledger = session.log.replay ledger) :
    after.ledger = after.log.replay ledger := by
  cases happens with
  | create credential unconnected => exact told
  | count call placed => exact told
  | check cost =>
      simp only [Summarizer.check, Log.replay]
      rw [told]
  | generate call placed => exact told
  | record cost =>
      simp only [Summarizer.record, Log.replay]
      rw [told]
  | pause ended le_ended => exact told

end Happens

/-! ### Courses -/

/-- A sequence of events that leads from one session to another. Each event
keeps a rule, which is given the log as it was before the event. -/
inductive Course
    (summarizer : Summarizer)
    (rule : Event → Log → Prop)
    (start : Session) : Session → Prop where
  | stay : Course summarizer rule start start
  | step
      {session after : Session}
      {event : Event}
      (course : Course summarizer rule start session)
      (happens : summarizer.Happens session event after)
      (kept : rule event session.log) : Course summarizer rule start after

namespace Course

variable {summarizer : Summarizer} {rule : Event → Log → Prop} {start session after : Session}

theorem single
    {event : Event}
    (happens : summarizer.Happens start event after)
    (kept : rule event start.log) :
    summarizer.Course rule start after :=
  .step .stay happens kept

theorem trans
    (first : summarizer.Course rule start session)
    (second : summarizer.Course rule session after) :
    summarizer.Course rule start after := by
  induction second with
  | stay => exact first
  | step _ happens kept inductionHypothesis => exact .step inductionHypothesis happens kept

/-- What every event preserves, a course preserves. -/
theorem invariant
    {P : Session → Prop}
    (course : summarizer.Course rule start session)
    (preserved : ∀ {before event after}, summarizer.Happens before event after →
      rule event before.log → P before → P after)
    (holds : P start) :
    P session := by
  induction course with
  | stay => exact holds
  | step _ happens kept inductionHypothesis => exact preserved happens kept inductionHypothesis

theorem log_suffix (course : summarizer.Course rule start session) :
    start.log <:+ session.log := by
  refine course.invariant (P := fun session => start.log <:+ session.log) ?_ (List.suffix_refl _)
  intro before event after happens _ grown
  rw [happens.log_eq]
  exact grown.trans (List.suffix_cons _ _)

theorem ledger_eq_replay
    {ledger : Usage.Ledger}
    (course : summarizer.Course rule start session)
    (told : start.ledger = start.log.replay ledger) :
    session.ledger = session.log.replay ledger :=
  course.invariant (P := fun session => session.ledger = session.log.replay ledger)
    (fun happens _ => happens.ledger_eq_replay) told

/-- What a course adds to the log tells what became of the ledger. -/
theorem exists_added (course : summarizer.Course rule start session) :
    ∃ added, session.log = added ++ start.log ∧
      session.ledger = Log.replay start.ledger added := by
  induction course with
  | stay => exact ⟨[], rfl, rfl⟩
  | @step session after event course happens kept inductionHypothesis =>
      obtain ⟨added, logEq, ledgerEq⟩ := inductionHypothesis
      refine ⟨event :: added, ?_, ?_⟩
      · rw [happens.log_eq, logEq]
        rfl
      · rw [happens.ledger_eq, ledgerEq]
        cases event <;> rfl

theorem mono
    {weaker : Event → Log → Prop}
    (course : summarizer.Course rule start session)
    (weaken : ∀ event before, rule event before → weaker event before) :
    summarizer.Course weaker start session := by
  induction course with
  | stay => exact .stay
  | step _ happens kept inductionHypothesis =>
      exact .step inductionHypothesis happens (weaken _ _ kept)

/-- A course may be told with the place of each event in the log that it leads to. -/
theorem placed (course : summarizer.Course rule start session) :
    summarizer.Course
      (fun event before =>
        rule event before ∧ start.log <:+ before ∧ event :: before <:+ session.log)
      start session := by
  induction course with
  | stay => exact .stay
  | step course happens kept inductionHypothesis =>
      have grown := happens.log_eq
      refine .step (inductionHypothesis.mono ?_) happens ⟨kept, course.log_suffix, ?_⟩
      · rintro event before ⟨eventKept, begun, place⟩
        refine ⟨eventKept, begun, ?_⟩
        rw [grown]
        exact place.trans (List.suffix_cons _ _)
      · exact grown ▸ List.suffix_refl _

/-- A course may be told with the session that each event finds: its log is all
that came before, and its ledger is the one that this log tells of. -/
theorem told
    {ledger : Usage.Ledger}
    (course : summarizer.Course rule start session)
    (startTold : start.ledger = start.log.replay ledger) :
    summarizer.Course
      (fun event before =>
        rule event before ∧ ∃ found left, found.log = before ∧
          found.ledger = before.replay ledger ∧ summarizer.Happens found event left)
      start session := by
  induction course with
  | stay => exact .stay
  | step course happens kept inductionHypothesis =>
      exact .step inductionHypothesis happens
        ⟨kept, _, _, rfl, course.ledger_eq_replay startTold, happens⟩

/-- The rule holds at every place of the log that a course has added. -/
theorem rule_of_suffix
    {event : Event}
    {before : Log}
    (course : summarizer.Course rule start session)
    (place : event :: before <:+ session.log)
    (begun : start.log <:+ before) :
    rule event before := by
  induction course with
  | stay =>
      have lengths := place.length_le
      have beforeLengths := begun.length_le
      simp only [List.length_cons] at lengths
      omega
  | step course happens kept inductionHypothesis =>
      rw [happens.log_eq] at place
      rcases List.suffix_cons_iff.mp place with newest | older
      · obtain ⟨rfl, rfl⟩ := List.cons.inj newest
        exact kept
      · exact inductionHypothesis older

/-- The verdict of each check that a course has added is that of the ledger
which the log before it tells of. -/
theorem verdict_of_suffix
    {ledger : Usage.Ledger}
    {now : Instant}
    {cost : UInt64}
    {verdict : Except Usage.Exceeded Unit}
    {before : Log}
    (course : summarizer.Course rule start session)
    (startTold : start.ledger = start.log.replay ledger)
    (place : .check now cost verdict :: before <:+ session.log)
    (begun : start.log <:+ before) :
    verdict = ((before.replay ledger).check now cost).1 := by
  obtain ⟨-, found, left, -, foundLedger, happens⟩ :=
    (course.told startTold).rule_of_suffix place begun
  rw [← foundLedger]
  exact happens.verdict_eq

end Course

end Summarizer

end Precis.Summary

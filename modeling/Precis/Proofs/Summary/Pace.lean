import Mathlib.Algebra.Ring.Nat
import Precis.Proofs.Summary.Answers
import Precis.Proofs.Summary.Fallback
import Precis.Proofs.Summary.Turns

/-!
Contract: how long a request takes that is never cancelled.

Owns the two ways in which time passes: a call takes the time that the
surroundings say, and a pause takes its own length. `Course.elapsed` says that
there is no third one. The pauses of a request are told exactly, by the turns
after which they come, and so is the time that it takes.

Does not own a request that is cancelled, whose last wait may be cut off.
-/

namespace Precis.Summary

/-- A pause, and everything that happened before. -/
structure Pause where
  started : Moment
  ended : Moment
  before : Log

def Pause.length (pause : Pause) : Nat :=
  pause.ended - pause.started

/-- How long the surroundings make a call wait, given everything before it.
Anything else that happens takes none of their time. -/
def Surroundings.delayOf (surroundings : Surroundings) : Event → Log → Nat
  | .count call, before => (surroundings.count before call.started call.model call.input).delay
  | .generate call, before =>
      (surroundings.generate before call.started call.model call.input).delay
  | _, _ => 0

namespace Log

/-- Every pause, oldest first. -/
def pauses : Log → List Pause
  | [] => []
  | .pause started ended :: before => pauses before ++ [⟨started, ended, before⟩]
  | _ :: before => pauses before

/-- The time that went into pauses. -/
def rested (log : Log) : Nat :=
  (log.pauses.map Pause.length).sum

/-- The time that the calls took by themselves which were added to a log. -/
def callTime (surroundings : Surroundings) (start : Log) : (added : Log) → Nat
  | [] => 0
  | event :: older =>
      callTime surroundings start older + surroundings.delayOf event (older ++ start)

end Log

/-- A call that was answered took as long as the surroundings say. -/
theorem Call.IsPlaced.ended_eq
    {α : Type}
    {call : Call α}
    {session : Session}
    {answer : Log → Moment → (model input : String) → Answer α}
    (placed : call.IsPlaced session answer)
    (answered : call.answer ≠ none) :
    call.ended =
      session.now + (answer session.log call.started call.model call.input).delay := by
  obtain ⟨result, answerEq⟩ := Option.ne_none_iff_exists'.mp answered
  rw [placed.started_eq]
  exact (placed.answered result answerEq).2

namespace Summarizer

variable {summarizer : Summarizer} {start session after final : Session}

/-! ### Where time goes -/

/-- One event takes the time of its call or the length of its pause. -/
theorem Happens.elapsed
    {event : Event}
    (happens : summarizer.Happens session event after)
    (answered : event.IsAnswered) :
    session.log.rested + after.now =
      after.log.rested + session.now +
        summarizer.surroundings.delayOf event session.log := by
  cases happens with
  | create credential unconnected => rfl
  | count call placed =>
      exact (congrArg (_ + ·) (placed.ended_eq answered)).trans (Nat.add_assoc _ _ _).symm
  | check cost => rfl
  | generate call placed =>
      exact (congrArg (_ + ·) (placed.ended_eq answered)).trans (Nat.add_assoc _ _ _).symm
  | record cost => rfl
  | pause ended le_ended =>
      have rested : (session.elapse (.pause session.now ended) ended).log.rested =
          session.log.rested + (ended - session.now) := by
        simp [Log.rested, Log.pauses, Session.elapse, Pause.length]
      rw [rested, Nat.add_assoc _ _ session.now, Nat.sub_add_cancel le_ended]
      rfl

/-- Time passes in calls and in pauses only. -/
theorem Course.elapsed
    (course : summarizer.Course (fun event _ => event.IsAnswered) start session) :
    ∃ added, session.log = added ++ start.log ∧
      start.log.rested + session.now =
        session.log.rested + start.now +
          Log.callTime summarizer.surroundings start.log added := by
  induction course with
  | stay => exact ⟨[], rfl, rfl⟩
  | @step session after event course happens answered inductionHypothesis =>
      obtain ⟨added, logEq, elapsed⟩ := inductionHypothesis
      have took := happens.elapsed answered
      refine ⟨event :: added, ?_, ?_⟩
      · rw [happens.log_eq, logEq]
        rfl
      · rw [logEq] at took elapsed
        simp only [Log.callTime]
        omega

/-! ### Where the pauses are -/

theorem AttemptRule.pauses_cons
    {request : Request}
    {descriptor : Model.Descriptor}
    {event : Event}
    {before : Log}
    (kept : summarizer.AttemptRule request descriptor event before) :
    Log.pauses (event :: before) = before.pauses := by
  cases kept with
  | prepare kept =>
      cases kept with
      | create credential answer before => rfl
      | count call before modelEq begins => rfl
  | check now verdict older measures => rfl
  | generate now older modelEq measures => rfl
  | record now now' older brings => rfl

theorem attempt_pauses
    (cancellation : Cancellation)
    (request : Request)
    (descriptor : Model.Descriptor)
    (session : Session) :
    (summarizer.attempt cancellation request descriptor session).2.log.pauses =
      session.log.pauses := by
  refine (summarizer.attempt_course cancellation request descriptor session).invariant
    (P := fun after => after.log.pauses = session.log.pauses) ?_ rfl
  intro before event after happens kept same
  rw [happens.log_eq]
  exact kept.pauses_cons.trans same

/-- The pause after an attempt that nothing cuts off. -/
def wholePauseAfter (summarizer : Summarizer) (turn : Turn) : Pause where
  started := (summarizer.attemptOf turn).2.now
  ended := (summarizer.attemptOf turn).2.now + summarizer.backoff.nanoseconds
  before := (summarizer.attemptOf turn).2.log

/-- Of a request that is never cancelled, all calls are answered, and the pauses
are those after the attempts that pass the request on. -/
theorem Strides.never
    {request : Request}
    {remaining : List Model.Id}
    {turns : List Turn}
    (strides : summarizer.Strides ⟨request, .never⟩ remaining start turns final) :
    summarizer.Course (fun event _ => event.IsAnswered) start final ∧
      final.log.pauses =
        start.log.pauses ++
          (turns.filter (summarizer.PassesOn ·)).map summarizer.wholePauseAfter := by
  have answered :
      ∀ turn : Turn, turn.use = ⟨request, .never⟩ →
        summarizer.Course (fun event _ => event.IsAnswered) turn.found
          (summarizer.attemptOf turn).2 := by
    intro turn useEq
    refine (summarizer.attempt_answers _ _ _ _).course.mono fun _ _ given => given ?_
    rw [useEq]
    exact summarizer.attempt_never_ne _ _ _
  induction strides with
  | none remaining session => exact ⟨.stay, (List.append_nil _).symm⟩
  | last turn useEq stays =>
      refine ⟨answered turn useEq, ?_⟩
      rw [List.filter_cons_of_neg (by simp [stays])]
      exact (attempt_pauses _ _ _ _).trans (List.append_nil _).symm
  | interrupted turn useEq passes cancelled =>
      unfold pauseAfter at cancelled
      rw [useEq, Session.pause_never_fst] at cancelled
      contradiction
  | @next turn later final useEq passes waited strides inductionHypothesis =>
      obtain ⟨course, pauses⟩ := inductionHypothesis
      have paused : summarizer.Course (fun event _ => event.IsAnswered)
          (summarizer.attemptOf turn).2 (summarizer.pauseAfter turn).2 :=
        summarizer.pause_course _ _ _ fun _ _ => trivial
      have attempted : (summarizer.attemptOf turn).2.log.pauses = turn.found.log.pauses :=
        attempt_pauses _ _ _ _
      have rests : (summarizer.pauseAfter turn).2.log.pauses =
          (summarizer.attemptOf turn).2.log.pauses ++ [summarizer.wholePauseAfter turn] := by
        unfold pauseAfter
        rw [useEq, pause_never_eq]
        rfl
      refine ⟨((answered turn useEq).trans paused).trans course, ?_⟩
      rw [pauses, rests, attempted, List.filter_cons_of_pos (by simp [passes]),
        List.map_cons, List.append_assoc]
      rfl

/-- A request that is never cancelled attempts candidates from the first one on.
It takes as long as its calls take by themselves, and the backoff once for each
attempt that fails, without ending the request, while another candidate follows.
It pauses at no other time: every pause begins when such an attempt has ended and
comes before anything else happens. -/
theorem summarize_elapsed (summarizer : Summarizer) (request : Request) (start : Session) :
    let use : Use := ⟨request, .never⟩
    let turns := summarizer.turnsOf use start
    let final := (summarizer.summarize .never request start).2
    turns.map Turn.model <+: summarizer.candidates request ∧
    (∀ turn,
      turn ∈ turns ↔
        summarizer.catalog.supports request.family = true ∧ turn.use = use ∧
          ∃ tried,
            summarizer.InTurn .never request (summarizer.candidates request) start tried
              turn.rest turn.model turn.descriptor turn.found) ∧
    (∃ added, final.log = added ++ start.log ∧
      final.now =
        start.now + Log.callTime summarizer.surroundings start.log added +
          turns.countP (summarizer.PassesOn ·) * summarizer.backoff.nanoseconds) ∧
    final.log.pauses =
      start.log.pauses ++
        (turns.filter (summarizer.PassesOn ·)).map summarizer.wholePauseAfter := by
  intro use turns final
  have strides := summarizer.summarize_strides use start
  obtain ⟨course, pauses⟩ := strides.never
  refine ⟨strides.models_prefix, fun turn => mem_turnsOf_iff, ?_, pauses⟩
  obtain ⟨added, logEq, elapsed⟩ := course.elapsed
  refine ⟨added, logEq, ?_⟩
  have rested : final.log.rested =
      start.log.rested +
        turns.countP (summarizer.PassesOn ·) * summarizer.backoff.nanoseconds := by
    have each : Pause.length ∘ summarizer.wholePauseAfter =
        fun _ => summarizer.backoff.nanoseconds := by
      funext turn
      exact Nat.add_sub_cancel_left _ _
    unfold Log.rested
    rw [pauses, List.map_append, List.sum_append, List.map_map, each, List.map_const',
      List.sum_replicate_nat, List.countP_eq_length_filter]
  refine Nat.add_left_cancel (elapsed.trans ?_)
  show final.log.rested + _ + _ = _
  rw [rested]
  omega

end Summarizer

end Precis.Summary

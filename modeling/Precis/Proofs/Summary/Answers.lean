import Precis.Proofs.Summary.Interruption

/-!
Contract: what an attempt owes to the answers that it gets.

Owns two facts about every part of an attempt, kept together in `Answers`: a
call stays without an answer only where the part is cancelled, and a failure is
either one that the summarizer finds itself or the very answer to the newest
event, given by the factory or by a model.

Does not own which answers those are.
-/

namespace Precis.Summary

/-- An event that is no call without an answer. -/
def Event.IsAnswered : Event → Prop
  | .count call => call.answer ≠ none
  | .generate call => call.answer ≠ none
  | _ => True

/-- A cause of failure that the summarizer can find itself. -/
def Error.IsOwn : Error → Prop
  | .missingCredential _ => True
  | .contextLengthExceeded _ _ => True
  | .budgetExceeded _ => True
  | .noContent => True
  | .noContentParts => True
  | _ => False

theorem Reply.isOwn_of_firstText
    {reply : Reply}
    {cause : Error}
    (missing : reply.firstText = .error cause) :
    cause.IsOwn := by
  unfold Reply.firstText at missing
  split at missing
  · contradiction
  · obtain rfl := Except.error.inj missing
    trivial
  · obtain rfl := Except.error.inj missing
    trivial

/-- An event by which the factory or a model fails with a cause. -/
inductive Surroundings.Refuses (surroundings : Surroundings) (cause : Error) :
    Event → Log → Prop where
  | create
      {credential : String}
      {before : Log}
      (given : surroundings.create before credential = .error cause) :
      Refuses surroundings cause (.create credential (.error cause)) before
  | count
      {call : Call UInt64}
      {before : Log}
      (answered : call.answer = some (.error cause))
      (given :
        (surroundings.count before call.started call.model call.input).result = .error cause) :
      Refuses surroundings cause (.count call) before
  | generate
      {call : Call Reply}
      {before : Log}
      (answered : call.answer = some (.error cause))
      (given :
        (surroundings.generate before call.started call.model call.input).result =
          .error cause) :
      Refuses surroundings cause (.generate call) before

theorem Call.IsPlaced.given
    {α : Type}
    {call : Call α}
    {session : Session}
    {answer : Log → Moment → (model input : String) → Answer α}
    {result : Except Error α}
    (placed : call.IsPlaced session answer)
    (answered : call.answer = some result) :
    (answer session.log call.started call.model call.input).result = result := by
  rw [placed.started_eq]
  exact (placed.answered result answered).1.symm

namespace Summarizer

/-- What a part of an attempt owes to the answers that it gets. -/
structure Answers
    {α : Type}
    (summarizer : Summarizer)
    (start : Session)
    (part : Ended α × Session) : Prop where
  course :
    summarizer.Course (fun event _ => part.1 ≠ .cancelled → event.IsAnswered) start part.2
  failure :
    ∀ cause, part.1 = .finished (.error cause) →
      cause.IsOwn ∨ ∃ event before, part.2.log = event :: before ∧ start.log <:+ before ∧
        summarizer.surroundings.Refuses cause event before

namespace Answers

variable {α : Type} {summarizer : Summarizer} {start final : Session} {cause : Error}

theorem of_cancelled (course : summarizer.Leads start final) :
    summarizer.Answers start ((.cancelled, final) : Ended α × Session) where
  course := course.mono fun _ _ _ notCancelled => absurd rfl notCancelled
  failure := by
    intro cause failed
    contradiction

theorem of_value
    {value : α}
    (course : summarizer.Course (fun event _ => event.IsAnswered) start final) :
    summarizer.Answers start (.finished (.ok value), final) where
  course := course.mono fun _ _ answered _ => answered
  failure := by
    intro cause failed
    have differ := Ended.finished.inj failed
    contradiction

theorem of_own
    (course : summarizer.Course (fun event _ => event.IsAnswered) start final)
    (own : cause.IsOwn) :
    summarizer.Answers start ((.finished (.error cause), final) : Ended α × Session) where
  course := course.mono fun _ _ answered _ => answered
  failure := by
    rintro _ ⟨rfl⟩
    exact .inl own

theorem of_refusal
    {event : Event}
    (course : summarizer.Course (fun event _ => event.IsAnswered) start final)
    (logEq : final.log = event :: start.log)
    (refuses : summarizer.surroundings.Refuses cause event start.log) :
    summarizer.Answers start ((.finished (.error cause), final) : Ended α × Session) where
  course := course.mono fun _ _ answered _ => answered
  failure := by
    rintro _ ⟨rfl⟩
    exact .inr ⟨event, start.log, logEq, List.suffix_refl _, refuses⟩

/-- A part that is not cancelled has answered all its calls. -/
theorem course_of_finished
    {result : Except Error α}
    (answers : summarizer.Answers start (.finished result, final)) :
    summarizer.Course (fun event _ => event.IsAnswered) start final :=
  answers.course.mono fun _ _ answered => answered (by simp)

/-- What comes before a part and is answered belongs to what the part owes. -/
theorem after
    {begun : Session}
    {part : Ended α × Session}
    (course : summarizer.Course (fun event _ => event.IsAnswered) begun start)
    (answers : summarizer.Answers start part) :
    summarizer.Answers begun part where
  course := (course.mono fun _ _ answered _ => answered).trans answers.course
  failure := by
    intro cause failed
    rcases answers.failure cause failed with own | ⟨event, before, logEq, grown, refuses⟩
    · exact .inl own
    · exact .inr ⟨event, before, logEq, course.log_suffix.trans grown, refuses⟩

end Answers

/-! ### The parts -/

theorem exists_counted
    {summarizer : Summarizer}
    {cancellation : Cancellation}
    {model input : String}
    {session after : Session}
    {ended : Ended UInt64}
    (counts : summarizer.count cancellation model input session = (ended, after)) :
    ∃ call : Call UInt64, call.IsPlaced session summarizer.surroundings.count ∧
      call.outcome = ended ∧ after = session.elapse (.count call) call.ended := by
  obtain ⟨call, placed, -, -, callEq⟩ :=
    session.call_eq cancellation .count summarizer.surroundings.count model input
  unfold count at counts
  rw [callEq] at counts
  obtain ⟨outcome, same⟩ := Prod.mk.inj counts
  exact ⟨call, placed, outcome, same.symm⟩

theorem count_course_isAnswered
    {summarizer : Summarizer}
    {cancellation : Cancellation}
    {model input : String}
    {session after : Session}
    {result : Except Error UInt64}
    (counts : summarizer.count cancellation model input session = (.finished result, after)) :
    summarizer.Course (fun event _ => event.IsAnswered) session after := by
  obtain ⟨call, placed, outcome, rfl⟩ := exists_counted counts
  refine .single (.count call placed) ?_
  show call.answer ≠ none
  rw [Call.answer_eq_some_of_outcome outcome]
  exact Option.some_ne_none result

theorem fit_answers
    (summarizer : Summarizer)
    (cancellation : Cancellation)
    (model : String)
    (limit : UInt64)
    (input : String)
    (session : Session) :
    summarizer.Answers session
      (summarizer.fit cancellation model limit input session) := by
  fun_induction Summarizer.fit summarizer cancellation model limit input session with
  | case1 input session after counts =>
      obtain ⟨call, placed, -, rfl⟩ := exists_counted counts
      exact .of_cancelled (.single (.count call placed) trivial)
  | case2 input session cause after counts =>
      have course := count_course_isAnswered counts
      obtain ⟨call, placed, outcome, rfl⟩ := exists_counted counts
      have answered := Call.answer_eq_some_of_outcome outcome
      exact .of_refusal course rfl (.count answered (placed.given answered))
  | case3 input session tokens after counts fits =>
      exact .of_value (count_course_isAnswered counts)
  | case4 session tokens after tooMany counts =>
      exact .of_own (count_course_isAnswered counts) trivial
  | case5 input session tokens after counts tooMany notEmpty inductionHypothesis =>
      exact inductionHypothesis.after (count_course_isAnswered counts)

theorem Generates.answers
    {summarizer : Summarizer}
    {model input : String}
    {tokens : UInt64}
    {session after : Session}
    {ended : Ended String}
    (generates : summarizer.Generates model input tokens session ended after) :
    summarizer.Answers session (ended, after) := by
  have checks :
      summarizer.Course (fun event _ => event.IsAnswered) session
        (summarizer.check tokens session).2 :=
    .single (.check tokens) trivial
  have called :
      ∀ {call : Call Reply} {result : Except Error Reply},
        call.IsPlaced (summarizer.check tokens session).2 summarizer.surroundings.generate →
        call.answer = some result →
        summarizer.Course (fun event _ => event.IsAnswered) (summarizer.check tokens session).2
          ((summarizer.check tokens session).2.elapse (.generate call) call.ended) := by
    intro call result placed answered
    refine .single (.generate call placed) ?_
    show call.answer ≠ none
    rw [answered]
    exact Option.some_ne_none result
  refine Answers.after checks ?_
  cases generates with
  | refused verdict => exact .of_own .stay trivial
  | abandoned verdict placed modelEq inputEq unanswered =>
      exact .of_cancelled (.single (.generate _ placed) trivial)
  | failed verdict placed modelEq inputEq answered =>
      exact .of_refusal (called placed answered) rfl
        (.generate answered (placed.given answered))
  | contentless verdict placed modelEq inputEq answered missing =>
      exact .of_own (called placed answered) (Reply.isOwn_of_firstText missing)
  | recorded verdict placed modelEq inputEq answered found =>
      exact .of_value ((called placed answered).trans (.single (.record _) trivial))

theorem Answers.afterFit
    {summarizer : Summarizer}
    {start : Session}
    {fitted : Ended (String × UInt64) × Session}
    (answers : summarizer.Answers start fitted)
    (cancellation : Cancellation)
    (model : String) :
    summarizer.Answers start (summarizer.afterFit cancellation model fitted) := by
  obtain ⟨_ | ⟨cause | ⟨input, tokens⟩⟩, after⟩ := fitted
  · exact .of_cancelled answers.course.leads
  · refine ⟨answers.course_of_finished.mono fun _ _ answered _ => answered, ?_⟩
    rintro _ ⟨rfl⟩
    exact answers.failure cause rfl
  · exact Answers.after answers.course_of_finished
      (summarizer.generate_generates cancellation model input tokens after).answers

/-! ### The whole attempt -/

section Attempt

variable {summarizer : Summarizer} {cancellation : Cancellation} {request : Request}
  {descriptor : Model.Descriptor} {session : Session}

theorem attempt_of_unkeyed (unkeyed : summarizer.credential? = none) :
    summarizer.attempt cancellation request descriptor session =
      (.finished (.error (.missingCredential request.family.name)), session) := by
  rw [attempt, unkeyed]

theorem connect_of_connected (credential : String) (connected : session.connected = true) :
    summarizer.connect credential session = (.ok (), session) :=
  if_pos connected

theorem connect_of_unconnected (credential : String) (unconnected : session.connected = false) :
    summarizer.connect credential session =
      (summarizer.surroundings.create session.log credential,
        { session with
          connected := (summarizer.surroundings.create session.log credential).isOk
          log :=
            .create credential (summarizer.surroundings.create session.log credential) ::
              session.log }) := by
  unfold connect Session.note
  rw [if_neg (by simp [unconnected])]
  cases summarizer.surroundings.create session.log credential with
  | ok made => rfl
  | error cause =>
      -- A failure is not remembered: the session was not connected before either.
      exact congrArg (fun connected => (Except.error cause,
        { session with connected, log := .create credential (.error cause) :: session.log }))
        unconnected

theorem attempt_of_unmade
    {credential : String}
    {cause : Error}
    (keyed : summarizer.credential? = some credential)
    (unmade : (summarizer.connect credential session).1 = .error cause) :
    summarizer.attempt cancellation request descriptor session =
      (.finished (.error cause), (summarizer.connect credential session).2) := by
  rw [attempt, keyed]
  simp only
  rw [eq_mk_of_fst_eq unmade]

theorem attempt_answers_of_made
    {credential : String}
    (keyed : summarizer.credential? = some credential)
    (made : (summarizer.connect credential session).1 = .ok ()) :
    summarizer.Answers (summarizer.connect credential session).2
      (summarizer.attempt cancellation request descriptor session) := by
  rw [attempt_eq keyed (eq_mk_of_fst_eq made)]
  exact (summarizer.fit_answers cancellation _ _ _ _).afterFit cancellation _

end Attempt

theorem attempt_answers
    (summarizer : Summarizer)
    (cancellation : Cancellation)
    (request : Request)
    (descriptor : Model.Descriptor)
    (session : Session) :
    summarizer.Answers session
      (summarizer.attempt cancellation request descriptor session) := by
  cases keyed : summarizer.credential? with
  | none =>
      rw [attempt_of_unkeyed keyed]
      exact .of_own .stay trivial
  | some credential =>
      cases outcome : (summarizer.connect credential session).1 with
      | ok made =>
          exact (attempt_answers_of_made keyed outcome).after (connect_course fun _ => trivial)
      | error cause =>
          rw [attempt_of_unmade keyed outcome]
          have course : summarizer.Course (fun event _ => event.IsAnswered) session
              (summarizer.connect credential session).2 :=
            connect_course fun _ => trivial
          cases connected : session.connected with
          | true =>
              rw [connect_of_connected credential connected] at outcome
              contradiction
          | false =>
              rw [connect_of_unconnected credential connected] at outcome course ⊢
              simp only at outcome course ⊢
              rw [outcome] at course ⊢
              exact .of_refusal course rfl (.create outcome)

end Summarizer

end Precis.Summary

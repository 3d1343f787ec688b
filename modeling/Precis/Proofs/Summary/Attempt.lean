import Precis.Proofs.Summary.Course

/-!
Contract: one attempt, event by event.

This module owns how a generation can end and the rule that every event of an
attempt keeps: a check asks for the count that was just made, a generation
follows a check that passed and is given the very input that was counted, and a
record follows the answer that it pays for. `attempt_course` proves the rule of
every attempt, whatever the surroundings answer and whenever it is cancelled.
-/

namespace Precis.Summary

/-- A cut keeps the beginning of an input. -/
theorem shrink_begins (input : String) : (shrink input).toList <+: input.toList := by
  unfold shrink
  rw [String.toList_ofList]
  exact List.take_prefix _ _

/-- Whether the first candidate has content with at least one part. -/
def Reply.hasContent (reply : Reply) : Bool :=
  match reply.candidates with
  | some (_ :: _) :: _ => true
  | _ => false

theorem Reply.hasContent_of_firstText
    {reply : Reply}
    {text : String}
    (found : reply.firstText = .ok text) :
    reply.hasContent = true := by
  unfold Reply.firstText at found
  unfold Reply.hasContent
  split at found
  case h_1 candidatesEq => rw [candidatesEq]
  case h_2 => contradiction
  case h_3 => contradiction

theorem Reply.hasContent_of_firstText_eq_error
    {reply : Reply}
    {cause : Error}
    (missing : reply.firstText = .error cause) :
    reply.hasContent = false := by
  unfold Reply.hasContent
  split
  case h_1 candidatesEq => simp [Reply.firstText, candidatesEq] at missing
  case h_2 => rfl

/-- A generation that came to its end and brought a reply with content. -/
def Call.Brings (call : Call Reply) (reply : Reply) : Prop :=
  call.answer = some (.ok reply) ∧ reply.hasContent = true

theorem Call.answer_eq_some_of_outcome
    {α : Type}
    {call : Call α}
    {result : Except Error α}
    (finished : call.outcome = .finished result) :
    call.answer = some result := by
  unfold Call.outcome at finished
  split at finished
  · rw [← Ended.finished.inj finished]
    assumption
  · contradiction

theorem Call.answer_eq_none_of_outcome
    {α : Type}
    {call : Call α}
    (cancelled : call.outcome = .cancelled) :
    call.answer = none := by
  unfold Call.outcome at cancelled
  split at cancelled
  · contradiction
  · assumption

namespace Summarizer

/-- The limit on the tokens of an input: the smaller of the ceiling of the
request and that of the model. -/
def limitFor
    (summarizer : Summarizer)
    (request : Request)
    (descriptor : Model.Descriptor) : UInt64 :=
  (min (request.ceilingOr summarizer.defaultCeiling) descriptor.ceiling).toUInt64

/-! ### How a generation ends -/

/-- The endings of a generation from an input with its count. -/
inductive Generates
    (summarizer : Summarizer)
    (model input : String)
    (tokens : UInt64)
    (session : Session) : Ended String → Session → Prop where
  | refused
      {exceeded : Usage.Exceeded}
      (verdict : (summarizer.check tokens session).1 = .error exceeded) :
      Generates summarizer model input tokens session
        (.finished (.error (.budgetExceeded exceeded))) (summarizer.check tokens session).2
  | abandoned
      {call : Call Reply}
      (verdict : (summarizer.check tokens session).1 = .ok ())
      (placed :
        call.IsPlaced (summarizer.check tokens session).2 summarizer.surroundings.generate)
      (model_eq : call.model = model)
      (input_eq : call.input = input)
      (unanswered : call.answer = none) :
      Generates summarizer model input tokens session .cancelled
        ((summarizer.check tokens session).2.elapse (.generate call) call.ended)
  | failed
      {call : Call Reply}
      {cause : Error}
      (verdict : (summarizer.check tokens session).1 = .ok ())
      (placed :
        call.IsPlaced (summarizer.check tokens session).2 summarizer.surroundings.generate)
      (model_eq : call.model = model)
      (input_eq : call.input = input)
      (answered : call.answer = some (.error cause)) :
      Generates summarizer model input tokens session (.finished (.error cause))
        ((summarizer.check tokens session).2.elapse (.generate call) call.ended)
  | contentless
      {call : Call Reply}
      {reply : Reply}
      {cause : Error}
      (verdict : (summarizer.check tokens session).1 = .ok ())
      (placed :
        call.IsPlaced (summarizer.check tokens session).2 summarizer.surroundings.generate)
      (model_eq : call.model = model)
      (input_eq : call.input = input)
      (answered : call.answer = some (.ok reply))
      (missing : reply.firstText = .error cause) :
      Generates summarizer model input tokens session (.finished (.error cause))
        ((summarizer.check tokens session).2.elapse (.generate call) call.ended)
  | recorded
      {call : Call Reply}
      {reply : Reply}
      {text : String}
      (verdict : (summarizer.check tokens session).1 = .ok ())
      (placed :
        call.IsPlaced (summarizer.check tokens session).2 summarizer.surroundings.generate)
      (model_eq : call.model = model)
      (input_eq : call.input = input)
      (answered : call.answer = some (.ok reply))
      (found : reply.firstText = .ok text) :
      Generates summarizer model input tokens session (.finished (.ok text))
        (summarizer.record (reply.usage.getD tokens)
          ((summarizer.check tokens session).2.elapse (.generate call) call.ended))

theorem generate_generates
    (summarizer : Summarizer)
    (cancellation : Cancellation)
    (model input : String)
    (tokens : UInt64)
    (session : Session) :
    summarizer.Generates model input tokens session
      (summarizer.generate cancellation model input tokens session).1
      (summarizer.generate cancellation model input tokens session).2 := by
  unfold Summarizer.generate
  split
  case h_1 exceeded after checkEq =>
    have refused : summarizer.Generates model input tokens session
        (.finished (.error (.budgetExceeded exceeded))) (summarizer.check tokens session).2 :=
      .refused (by rw [checkEq])
    rw [checkEq] at refused
    exact refused
  case h_2 checked checkEq =>
    have verdict : (summarizer.check tokens session).1 = .ok () := by rw [checkEq]
    have checkedEq : checked = (summarizer.check tokens session).2 := by rw [checkEq]
    subst checkedEq
    obtain ⟨call, placed, modelEq, inputEq, callEq⟩ :=
      (summarizer.check tokens session).2.call_eq cancellation .generate
        summarizer.surroundings.generate model input
    rw [callEq]
    split
    case h_1 after ended =>
      obtain ⟨outcome, rfl⟩ := Prod.mk.inj ended
      exact .abandoned verdict placed modelEq inputEq (Call.answer_eq_none_of_outcome outcome)
    case h_2 cause after ended =>
      obtain ⟨outcome, rfl⟩ := Prod.mk.inj ended
      exact .failed verdict placed modelEq inputEq (Call.answer_eq_some_of_outcome outcome)
    case h_3 reply after ended =>
      obtain ⟨outcome, rfl⟩ := Prod.mk.inj ended
      have answered := Call.answer_eq_some_of_outcome outcome
      split
      case h_1 cause contentless =>
        exact .contentless verdict placed modelEq inputEq answered contentless
      case h_2 text content =>
        exact .recorded verdict placed modelEq inputEq answered content

/-! ### Before a generation -/

/-- What happens before a generation: a handle is made, and beginnings of the
original input are counted. -/
inductive PrepareRule (model original : String) : Event → Log → Prop where
  | create (credential : String) (answer : Except Error Unit) (before : Log) :
      PrepareRule model original (.create credential answer) before
  | count
      (call : Call UInt64)
      (before : Log)
      (model_eq : call.model = model)
      (begins : call.input.toList <+: original.toList) :
      PrepareRule model original (.count call) before

theorem connect_course
    {summarizer : Summarizer}
    {rule : Event → Log → Prop}
    {credential : String}
    {session : Session}
    (kept : ∀ answer, rule (.create credential answer) session.log) :
    summarizer.Course rule session (summarizer.connect credential session).2 := by
  unfold connect
  split
  case isTrue => exact .stay
  case isFalse unconnected =>
    rw [Bool.not_eq_true] at unconnected
    have happens : summarizer.Happens session _ _ := .create credential unconnected
    refine Course.single ?_ (kept (summarizer.surroundings.create session.log credential))
    simp only [Session.note]
    cases answerEq : summarizer.surroundings.create session.log credential with
    | ok made =>
        rw [answerEq] at happens
        exact happens
    | error cause =>
        rw [answerEq] at happens
        -- A failure is not remembered: the session was not connected before either.
        have unchanged : (Except.error cause : Except Error Unit).isOk = session.connected :=
          unconnected.symm
        rw [unchanged] at happens
        exact happens

theorem count_course
    {summarizer : Summarizer}
    {cancellation : Cancellation}
    {model input original : String}
    {session after : Session}
    {ended : Ended UInt64}
    (counts : summarizer.count cancellation model input session = (ended, after))
    (isPrefix : input.toList <+: original.toList) :
    summarizer.Course (PrepareRule model original) session after ∧
      ∃ call : Call UInt64, call.model = model ∧ call.input = input ∧
        call.outcome = ended ∧ after.log = .count call :: session.log := by
  obtain ⟨call, placed, modelEq, inputEq, callEq⟩ :=
    session.call_eq cancellation .count summarizer.surroundings.count model input
  unfold count at counts
  rw [callEq] at counts
  obtain ⟨rfl, rfl⟩ := Prod.mk.inj counts
  refine ⟨.single (.count call placed) (.count call _ modelEq ?_),
    call, modelEq, inputEq, rfl, rfl⟩
  rw [inputEq]
  exact isPrefix

/-- An input that was just counted for a model, with its count. -/
structure Measures
    (model input original : String)
    (limit tokens : UInt64)
    (counted : Call UInt64) : Prop where
  model_eq : counted.model = model
  input_eq : counted.input = input
  answer_eq : counted.answer = some (.ok tokens)
  begins : input.toList <+: original.toList
  le_limit : tokens ≤ limit

/-- Looking for an input that fits only counts beginnings of the original. The
input that is found is the one that was counted last. -/
theorem fit_course
    (summarizer : Summarizer)
    (cancellation : Cancellation)
    (model : String)
    (limit : UInt64)
    {original : String}
    (input : String)
    (session : Session)
    (isPrefix : input.toList <+: original.toList) :
    summarizer.Course (PrepareRule model original) session
        (summarizer.fit cancellation model limit input session).2 ∧
      ∀ fitting tokens,
        (summarizer.fit cancellation model limit input session).1 =
            .finished (.ok (fitting, tokens)) →
          ∃ counted older,
            (summarizer.fit cancellation model limit input session).2.log =
                .count counted :: older ∧
              Measures model fitting original limit tokens counted := by
  fun_induction Summarizer.fit summarizer cancellation model limit input session with
  | case1 input session after counts => exact ⟨(count_course counts isPrefix).1, by simp⟩
  | case2 input session cause after counts => exact ⟨(count_course counts isPrefix).1, by simp⟩
  | case3 input session tokens after counts fits =>
      obtain ⟨course, call, modelEq, inputEq, outcome, logEq⟩ := count_course counts isPrefix
      refine ⟨course, fun fitting found same => ?_⟩
      obtain ⟨rfl, rfl⟩ := Prod.mk.inj (Except.ok.inj (Ended.finished.inj same))
      exact ⟨call, _, logEq, modelEq, inputEq, Call.answer_eq_some_of_outcome outcome,
        isPrefix, fits⟩
  | case4 session tokens after tooMany counts => exact ⟨(count_course counts isPrefix).1, by simp⟩
  | case5 input session tokens after counts tooMany notEmpty inductionHypothesis =>
      -- A cut of a beginning is again a beginning, so the search goes on as it began.
      obtain ⟨course, found⟩ :=
        inductionHypothesis ((shrink_begins input).trans isPrefix)
      exact ⟨(count_course counts isPrefix).1.trans course, found⟩

/-! ### The rule of an attempt -/

/-- The endings of an attempt. Either it stops before it comes to a generation,
or it generates from the input that was counted last. -/
inductive Attempts
    (summarizer : Summarizer)
    (request : Request)
    (descriptor : Model.Descriptor)
    (session : Session) : Ended String → Session → Prop where
  | stopped
      {ended : Ended String}
      {after : Session}
      (textless : ∀ text, ended ≠ .finished (.ok text))
      (course :
        summarizer.Course (PrepareRule descriptor.providerName request.input) session after) :
      Attempts summarizer request descriptor session ended after
  | generated
      {input : String}
      {tokens : UInt64}
      {counted : Call UInt64}
      {older : Log}
      {prepared after : Session}
      {ended : Ended String}
      (course :
        summarizer.Course (PrepareRule descriptor.providerName request.input) session prepared)
      (log_eq : prepared.log = .count counted :: older)
      (measures :
        Measures descriptor.providerName input request.input
          (summarizer.limitFor request descriptor) tokens counted)
      (generates :
        summarizer.Generates descriptor.providerName input tokens prepared ended after) :
      Attempts summarizer request descriptor session ended after

theorem attempt_attempts
    (summarizer : Summarizer)
    (cancellation : Cancellation)
    (request : Request)
    (descriptor : Model.Descriptor)
    (session : Session) :
    summarizer.Attempts request descriptor session
      (summarizer.attempt cancellation request descriptor session).1
      (summarizer.attempt cancellation request descriptor session).2 := by
  unfold attempt
  split
  case h_1 => exact .stopped (by simp) .stay
  case h_2 credential keyed =>
    have connects :
        summarizer.Course (PrepareRule descriptor.providerName request.input) session
          (summarizer.connect credential session).2 :=
      connect_course fun answer => .create credential answer _
    split
    case h_1 cause after connectEq =>
      rw [connectEq] at connects
      exact .stopped (by simp) connects
    case h_2 connected connectEq =>
      rw [connectEq] at connects
      obtain ⟨fits, found⟩ :=
        summarizer.fit_course cancellation descriptor.providerName
          (summarizer.limitFor request descriptor) request.input connected
          (List.prefix_refl _)
      unfold limitFor at fits found
      simp only
      split
      case h_1 after fitEq =>
        rw [fitEq] at fits
        exact .stopped (by simp) (connects.trans fits)
      case h_2 cause after fitEq =>
        rw [fitEq] at fits
        exact .stopped (by simp) (connects.trans fits)
      case h_3 input tokens fitted fitEq =>
        rw [fitEq] at fits found
        obtain ⟨counted, older, logEq, measures⟩ := found input tokens rfl
        exact .generated (connects.trans fits) logEq measures
          (summarizer.generate_generates cancellation _ _ _ _)

/-- What each event of an attempt keeps, going by what came right before it. -/
inductive AttemptRule
    (summarizer : Summarizer)
    (request : Request)
    (descriptor : Model.Descriptor) : Event → Log → Prop where
  | prepare
      {event : Event}
      {before : Log}
      (kept : PrepareRule descriptor.providerName request.input event before) :
      AttemptRule summarizer request descriptor event before
  | check
      {input : String}
      {tokens : UInt64}
      {counted : Call UInt64}
      (now : Instant)
      (verdict : Except Usage.Exceeded Unit)
      (older : Log)
      (measures :
        Measures descriptor.providerName input request.input
          (summarizer.limitFor request descriptor) tokens counted) :
      AttemptRule summarizer request descriptor (.check now tokens verdict)
        (.count counted :: older)
  | generate
      {tokens : UInt64}
      {counted : Call UInt64}
      {call : Call Reply}
      (now : Instant)
      (older : Log)
      (model_eq : call.model = descriptor.providerName)
      (measures :
        Measures descriptor.providerName call.input request.input
          (summarizer.limitFor request descriptor) tokens counted) :
      AttemptRule summarizer request descriptor (.generate call)
        (.check now tokens (.ok ()) :: .count counted :: older)
  | record
      {reply : Reply}
      {tokens : UInt64}
      {call : Call Reply}
      (now now' : Instant)
      (older : Log)
      (brings : call.Brings reply) :
      AttemptRule summarizer request descriptor (.record now' (reply.usage.getD tokens))
        (.generate call :: .check now tokens (.ok ()) :: older)

theorem Generates.course
    {summarizer : Summarizer}
    {request : Request}
    {descriptor : Model.Descriptor}
    {prepared after : Session}
    {input : String}
    {tokens : UInt64}
    {ended : Ended String}
    {counted : Call UInt64}
    {older : Log}
    (generates :
      summarizer.Generates descriptor.providerName input tokens prepared ended after)
    (logEq : prepared.log = .count counted :: older)
    (measures :
      Measures descriptor.providerName input request.input
        (summarizer.limitFor request descriptor) tokens counted) :
    summarizer.Course (summarizer.AttemptRule request descriptor) prepared after := by
  have checks :
      summarizer.Course (summarizer.AttemptRule request descriptor) prepared
        (summarizer.check tokens prepared).2 := by
    refine .single (.check tokens) ?_
    rw [logEq]
    exact .check _ _ _ measures
  have called :
      ∀ call : Call Reply,
        (summarizer.check tokens prepared).1 = .ok () →
        call.IsPlaced (summarizer.check tokens prepared).2 summarizer.surroundings.generate →
        call.model = descriptor.providerName → call.input = input →
        summarizer.Course (summarizer.AttemptRule request descriptor) prepared
          ((summarizer.check tokens prepared).2.elapse (.generate call) call.ended) := by
    intro call verdict placed modelEq inputEq
    refine .step checks (.generate call placed) ?_
    have checkedLog :
        (summarizer.check tokens prepared).2.log =
          .check (summarizer.surroundings.clock prepared.log) tokens (.ok ()) ::
            .count counted :: older := by
      rw [← verdict, ← logEq]
      rfl
    rw [checkedLog]
    rw [← inputEq] at measures
    exact .generate _ _ modelEq measures
  cases generates with
  | refused verdict => exact checks
  | abandoned verdict placed modelEq inputEq unanswered =>
      exact called _ verdict placed modelEq inputEq
  | failed verdict placed modelEq inputEq answered =>
      exact called _ verdict placed modelEq inputEq
  | contentless verdict placed modelEq inputEq answered missing =>
      exact called _ verdict placed modelEq inputEq
  | @recorded call reply text verdict placed modelEq inputEq answered found =>
      refine .step (called call verdict placed modelEq inputEq) (.record _) ?_
      have generatedLog :
          ((summarizer.check tokens prepared).2.elapse (.generate call) call.ended).log =
            .generate call ::
              .check (summarizer.surroundings.clock prepared.log) tokens (.ok ()) ::
                prepared.log := by
        rw [← verdict]
        rfl
      rw [generatedLog]
      exact .record _ _ _ ⟨answered, Reply.hasContent_of_firstText found⟩

/-- Every event of an attempt keeps the rule, however the attempt ends. -/
theorem attempt_course
    (summarizer : Summarizer)
    (cancellation : Cancellation)
    (request : Request)
    (descriptor : Model.Descriptor)
    (session : Session) :
    summarizer.Course (summarizer.AttemptRule request descriptor) session
      (summarizer.attempt cancellation request descriptor session).2 := by
  cases summarizer.attempt_attempts cancellation request descriptor session with
  | stopped textless course => exact course.mono fun _ _ kept => .prepare kept
  | generated course logEq measures generates =>
      exact (course.mono fun _ _ kept => .prepare kept).trans (generates.course logEq measures)

end Summarizer

end Precis.Summary

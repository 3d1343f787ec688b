import Precis.Proofs.Summary.Walk

/-!
Contract: one attempt beside the same attempt without a cancellation.

Owns `CutsShort`, how far a part of a request got that was broken off, told by
the course of the same part that nobody cancels, and `Beside`, which relates the
two. `Beside.bind` carries the relation from a step to what follows it, so that
each part of an attempt needs one lemma of its own and no part is opened twice.

Does not own: the walk from candidate to candidate.
-/

namespace Precis.Summary

/-! ### Waits -/

/-- As far as a log tells, the cancellation has come by a moment. -/
def Cancellation.HasComeBy (cancellation : Cancellation) (log : Log) (moment : Moment) : Prop :=
  ∃ cancelled, cancellation log = some cancelled ∧ cancelled ≤ moment

theorem Session.isCancelledBy_iff
    {session : Session}
    {cancellation : Cancellation}
    {moment : Moment} :
    session.isCancelledBy cancellation moment = true ↔
      cancellation.HasComeBy session.log moment := by
  unfold isCancelledBy Cancellation.HasComeBy
  cases cancellation session.log with
  | none => simp
  | some cancelled => simp

/-- A call that has begun and has no answer yet. -/
def Call.pending {α : Type} (call : Call α) : Call α :=
  { call with ended := call.started, answer := none }

/-- A call that was given up at a moment. -/
def Call.givenUp {α : Type} (call : Call α) (moment : Moment) : Call α :=
  { call with ended := moment, answer := none }

namespace Event

/-- Whether an event is waited for. -/
def IsWait : Event → Prop
  | .count _ => True
  | .generate _ => True
  | .pause _ _ => True
  | _ => False

/-- What is left of an event that is broken off at a moment. -/
def brokenOff (moment : Moment) : Event → Event
  | .count call => .count (call.givenUp moment)
  | .generate call => .generate (call.givenUp moment)
  | .pause started _ => .pause started moment
  | event => event

/-- The log while an event is waited for. A call is in the log from its
beginning, a pause only from its end. -/
def during : Event → Log → Log
  | .count call, before => .count call.pending :: before
  | .generate call, before => .generate call.pending :: before
  | _, before => before

/-- An event that a cancellation lets come to its end. A call that takes no time
is not waited for; any other wait is over before the cancellation comes. -/
def Undisturbed (cancellation : Cancellation) : Event → Log → Prop
  | .count call, before =>
      call.ended = call.started ∨
        ¬ cancellation.HasComeBy (during (.count call) before) call.ended
  | .generate call, before =>
      call.ended = call.started ∨
        ¬ cancellation.HasComeBy (during (.generate call) before) call.ended
  | .pause _ ended, before => ¬ cancellation.HasComeBy before ended
  | _, _ => True

end Event

namespace Summarizer

/-! ### Where a course is cut -/

/-- Events of any kind lead from one session to another. -/
abbrev Leads (summarizer : Summarizer) (start session : Session) : Prop :=
  summarizer.Course (fun _ _ => True) start session

theorem Course.leads
    {summarizer : Summarizer}
    {rule : Event → Log → Prop}
    {start session : Session}
    (course : summarizer.Course rule start session) :
    summarizer.Leads start session :=
  course.mono fun _ _ _ => trivial

/-- The sessions in which a cancellation can leave a part of a request that
would have led from `start` to `full`. It ends between two events, or while an
event is waited for; this event ends at the cancellation then, or at once if
the cancellation had come before. -/
inductive CutsShort
    (summarizer : Summarizer)
    (cancellation : Cancellation)
    (start full : Session) : Session → Prop where
  | between
      {point : Session}
      (passed : summarizer.Course (Event.Undisturbed cancellation) start point)
      (ahead : summarizer.Leads point full)
      (come : cancellation.HasComeBy point.log point.now) :
      CutsShort summarizer cancellation start full point
  | during
      {point after : Session}
      {event : Event}
      {moment : Moment}
      (passed : summarizer.Course (Event.Undisturbed cancellation) start point)
      (happens : summarizer.Happens point event after)
      (waits : event.IsWait)
      (ahead : summarizer.Leads after full)
      (come : cancellation (event.during point.log) = some moment)
      (inTime : moment ≤ after.now) :
      CutsShort summarizer cancellation start full
        (point.elapse (event.brokenOff (max point.now moment)) (max point.now moment))

namespace CutsShort

variable {summarizer : Summarizer} {cancellation : Cancellation} {start full cut : Session}

theorem after
    {begun : Session}
    (course : summarizer.Course (Event.Undisturbed cancellation) begun start)
    (short : summarizer.CutsShort cancellation start full cut) :
    summarizer.CutsShort cancellation begun full cut := by
  cases short with
  | between passed ahead come => exact .between (course.trans passed) ahead come
  | during passed happens waits ahead come inTime =>
      exact .during (course.trans passed) happens waits ahead come inTime

theorem extend
    {final : Session}
    (short : summarizer.CutsShort cancellation start full cut)
    (onwards : summarizer.Leads full final) :
    summarizer.CutsShort cancellation start final cut := by
  cases short with
  | between passed ahead come => exact .between passed (ahead.trans onwards) come
  | during passed happens waits ahead come inTime =>
      exact .during passed happens waits (ahead.trans onwards) come inTime

theorem leads (short : summarizer.CutsShort cancellation start full cut) :
    summarizer.Leads start full := by
  cases short with
  | between passed ahead come => exact passed.leads.trans ahead
  | during passed happens waits ahead come inTime =>
      exact passed.leads.trans ((Course.single happens trivial).trans ahead)

end CutsShort

/-- A part of a request beside the same part without a cancellation: they are the
same and nothing was disturbed, or the part is cut short. -/
inductive Beside
    {α : Type}
    (summarizer : Summarizer)
    (cancellation : Cancellation)
    (start : Session)
    (whole cut : Ended α × Session) : Prop where
  | same
      (finished : whole.1 ≠ .cancelled)
      (eq : cut = whole)
      (course : summarizer.Course (Event.Undisturbed cancellation) start whole.2)
  | short
      (finished : whole.1 ≠ .cancelled)
      (cancelled : cut.1 = .cancelled)
      (short : summarizer.CutsShort cancellation start whole.2 cut.2)

namespace Beside

variable {α β : Type} {summarizer : Summarizer} {cancellation : Cancellation}
  {start : Session} {whole cut : Ended α × Session}

theorem finished (beside : summarizer.Beside cancellation start whole cut) :
    whole.1 ≠ .cancelled := by
  cases beside with
  | same finished eq course => exact finished
  | short finished cancelled short => exact finished

theorem leads (beside : summarizer.Beside cancellation start whole cut) :
    summarizer.Leads start whole.2 := by
  cases beside with
  | same finished eq course => exact course.leads
  | short finished cancelled short => exact short.leads

theorem after
    {begun : Session}
    (course : summarizer.Course (Event.Undisturbed cancellation) begun start)
    (beside : summarizer.Beside cancellation start whole cut) :
    summarizer.Beside cancellation begun whole cut := by
  cases beside with
  | same finished eq tail => exact .same finished eq (course.trans tail)
  | short finished cancelled short => exact .short finished cancelled (short.after course)

/-- What was not cut off is the same as without a cancellation. -/
theorem eq_of_finished
    {result : Except Error α}
    (beside : summarizer.Beside cancellation start whole cut)
    (ended : cut.1 = .finished result) :
    cut = whole ∧ summarizer.Course (Event.Undisturbed cancellation) start whole.2 := by
  cases beside with
  | same finished eq course => exact ⟨eq, course⟩
  | short finished cancelled short =>
      rw [ended] at cancelled
      contradiction

theorem cutsShort_of_cancelled
    (beside : summarizer.Beside cancellation start whole cut)
    (ended : cut.1 = .cancelled) :
    summarizer.CutsShort cancellation start whole.2 cut.2 := by
  cases beside with
  | same finished eq course =>
      rw [eq] at ended
      exact absurd ended finished
  | short finished cancelled short => exact short

/-- A step that was cut off ends the part that it belongs to. Otherwise the part
goes on from where the step would have led anyway. -/
theorem bind
    {onWhole onCut : Ended α × Session → Ended β × Session}
    (first : summarizer.Beside cancellation start whole cut)
    (stops : ∀ session, onCut (.cancelled, session) = (.cancelled, session))
    (next : ∀ result session,
      summarizer.Beside cancellation session (onWhole (.finished result, session))
        (onCut (.finished result, session))) :
    summarizer.Beside cancellation start (onWhole whole) (onCut cut) := by
  obtain ⟨ended, middle⟩ := whole
  cases ended with
  | cancelled => exact absurd rfl first.finished
  | finished result =>
      have further := next result middle
      cases first with
      | same finished eq course =>
          rw [eq]
          exact further.after course
      | short finished cancelled short =>
          rw [eq_mk_of_fst_eq cancelled, stops]
          exact .short further.finished rfl (short.extend further.leads)

end Beside

/-! ### Calls and pauses -/

/-- The call that comes to its end. -/
def answeredCall
    {α : Type}
    (session : Session)
    (answer : Log → Moment → (model input : String) → Answer α)
    (model input : String) : Call α :=
  let given := answer session.log session.now model input
  { model, input, started := session.now, ended := session.now + given.delay,
    answer := some given.result }

theorem answeredCall_isPlaced
    {α : Type}
    (session : Session)
    (answer : Log → Moment → (model input : String) → Answer α)
    (model input : String) :
    (answeredCall session answer model input).IsPlaced session answer where
  started_eq := rfl
  le_ended := Nat.le_add_right _ _
  answered := by
    intro result same
    exact ⟨(Option.some.inj same).symm, rfl⟩

theorem call_never_eq
    {α : Type}
    (session : Session)
    (event : Call α → Event)
    (answer : Log → Moment → (model input : String) → Answer α)
    (model input : String) :
    session.call .never event answer model input =
      (.finished (answer session.log session.now model input).result,
        session.elapse (event (answeredCall session answer model input))
          (answeredCall session answer model input).ended) := by
  unfold Session.call
  rw [if_neg]
  · rfl
  · rintro ⟨-, cancelled⟩
    contradiction

/-- A kind of calls whose events are waited for. -/
structure Awaits
    {α : Type}
    (summarizer : Summarizer)
    (event : Call α → Event)
    (answer : Log → Moment → (model input : String) → Answer α) : Prop where
  happens :
    ∀ session (call : Call α), call.IsPlaced session answer →
      summarizer.Happens session (event call) (session.elapse (event call) call.ended)
  isWait : ∀ call, (event call).IsWait
  brokenOff_eq : ∀ call moment, (event call).brokenOff moment = event (call.givenUp moment)
  during_eq : ∀ call before, (event call).during before = event call.pending :: before
  undisturbed_iff :
    ∀ cancellation call before, (event call).Undisturbed cancellation before ↔
      call.ended = call.started ∨
        ¬ cancellation.HasComeBy ((event call).during before) call.ended

theorem awaits_count (summarizer : Summarizer) :
    summarizer.Awaits .count summarizer.surroundings.count where
  happens _ call placed := .count call placed
  isWait _ := trivial
  brokenOff_eq _ _ := rfl
  during_eq _ _ := rfl
  undisturbed_iff _ _ _ := Iff.rfl

theorem awaits_generate (summarizer : Summarizer) :
    summarizer.Awaits .generate summarizer.surroundings.generate where
  happens _ call placed := .generate call placed
  isWait _ := trivial
  brokenOff_eq _ _ := rfl
  during_eq _ _ := rfl
  undisturbed_iff _ _ _ := Iff.rfl

theorem call_beside
    {α : Type}
    {summarizer : Summarizer}
    {event : Call α → Event}
    {answer : Log → Moment → (model input : String) → Answer α}
    (awaits : summarizer.Awaits event answer)
    (cancellation : Cancellation)
    (model input : String)
    (session : Session) :
    summarizer.Beside cancellation session
      (session.call .never event answer model input)
      (session.call cancellation event answer model input) := by
  rw [call_never_eq]
  have happens := awaits.happens session _ (answeredCall_isPlaced session answer model input)
  have duringEq := awaits.during_eq (answeredCall session answer model input) session.log
  unfold Session.call
  simp only
  split
  case isTrue broken =>
    obtain ⟨-, cancelled⟩ := broken
    obtain ⟨moment, come, inTime⟩ := Session.isCancelledBy_iff.mp cancelled
    have short := CutsShort.during .stay happens (awaits.isWait _) .stay
      (by rw [duringEq]; exact come) inTime
    rw [awaits.brokenOff_eq] at short
    refine .short (by simp) rfl ?_
    unfold Session.breakOff
    rw [come]
    exact short
  case isFalse notBroken =>
    refine .same (by simp) rfl (.single happens ?_)
    rw [awaits.undisturbed_iff, duringEq]
    by_cases atOnce : (answer session.log session.now model input).delay = 0
    · left
      show session.now + _ = session.now
      rw [atOnce, Nat.add_zero]
    · right
      intro come
      exact notBroken ⟨atOnce, Session.isCancelledBy_iff.mpr come⟩

theorem pause_never_eq (session : Session) (length : Duration) :
    session.pause .never length =
      (.finished (.ok ()),
        session.elapse (.pause session.now (session.now + length.nanoseconds))
          (session.now + length.nanoseconds)) :=
  rfl

theorem pause_beside
    (summarizer : Summarizer)
    (cancellation : Cancellation)
    (length : Duration)
    (session : Session) :
    summarizer.Beside cancellation session
      (session.pause .never length) (session.pause cancellation length) := by
  rw [pause_never_eq]
  have happens :
      summarizer.Happens session (.pause session.now (session.now + length.nanoseconds))
        (session.elapse (.pause session.now (session.now + length.nanoseconds))
          (session.now + length.nanoseconds)) :=
    .pause _ (Nat.le_add_right _ _)
  unfold Session.pause
  simp only
  split
  case isTrue cancelled =>
    obtain ⟨moment, come, inTime⟩ := Session.isCancelledBy_iff.mp cancelled
    refine .short (by simp) rfl ?_
    unfold Session.breakOff
    rw [come]
    exact .during .stay happens trivial .stay come inTime
  case isFalse live =>
    refine .same (by simp) rfl (.single happens ?_)
    intro come
    exact live (Session.isCancelledBy_iff.mpr come)

/-! ### The parts of an attempt -/

/-- What follows a count while an input is cut until it fits. -/
def afterCount
    (summarizer : Summarizer)
    (cancellation : Cancellation)
    (model : String)
    (limit : UInt64)
    (input : String) : Ended UInt64 × Session → Ended (String × UInt64) × Session
  | (.cancelled, after) => (.cancelled, after)
  | (.finished (.error cause), after) => (.finished (.error cause), after)
  | (.finished (.ok tokens), after) =>
      if tokens ≤ limit then (.finished (.ok (input, tokens)), after)
      else if _ : input = "" then
        (.finished (.error (.contextLengthExceeded tokens limit)), after)
      else summarizer.fit cancellation model limit (shrink input) after

theorem fit_eq
    (summarizer : Summarizer)
    (cancellation : Cancellation)
    (model : String)
    (limit : UInt64)
    (input : String)
    (session : Session) :
    summarizer.fit cancellation model limit input session =
      summarizer.afterCount cancellation model limit input
        (summarizer.count cancellation model input session) := by
  rw [fit]
  rcases summarizer.count cancellation model input session with
    ⟨_ | ⟨cause | tokens⟩, after⟩
  all_goals rfl

theorem fit_beside
    (summarizer : Summarizer)
    (cancellation : Cancellation)
    (model : String)
    (limit : UInt64)
    (input : String)
    (session : Session) :
    summarizer.Beside cancellation session
      (summarizer.fit .never model limit input session)
      (summarizer.fit cancellation model limit input session) := by
  -- The induction is on the length of the input, as in the search itself.
  induction length : input.length using Nat.strongRecOn generalizing input session with
  | _ length inductionHypothesis =>
      rw [fit_eq, fit_eq]
      refine (call_beside summarizer.awaits_count cancellation model input session).bind
        (fun _ => rfl) ?_
      intro result after
      cases result with
      | error cause => exact .same (by simp [afterCount]) rfl .stay
      | ok tokens =>
          unfold afterCount
          simp only
          by_cases fits : tokens ≤ limit
          · rw [if_pos fits, if_pos fits]
            exact .same (by simp) rfl .stay
          · rw [if_neg fits, if_neg fits]
            by_cases empty : input = ""
            · rw [dif_pos empty, dif_pos empty]
              exact .same (by simp) rfl .stay
            · rw [dif_neg empty, dif_neg empty]
              have shorter := length_shrink_lt empty
              exact inductionHypothesis _ (by omega) _ _ rfl

/-- What follows the answer to a generation. -/
def afterCall
    (summarizer : Summarizer)
    (tokens : UInt64) : Ended Reply × Session → Ended String × Session
  | (.cancelled, after) => (.cancelled, after)
  | (.finished (.error cause), after) => (.finished (.error cause), after)
  | (.finished (.ok reply), after) =>
      match reply.firstText with
      | .error cause => (.finished (.error cause), after)
      | .ok text => (.finished (.ok text), summarizer.record (reply.usage.getD tokens) after)

theorem generate_eq
    {summarizer : Summarizer}
    {cancellation : Cancellation}
    {model input : String}
    {tokens : UInt64}
    {session checked : Session}
    (passed : summarizer.check tokens session = (.ok (), checked)) :
    summarizer.generate cancellation model input tokens session =
      summarizer.afterCall tokens
        (checked.call cancellation .generate summarizer.surroundings.generate model input) := by
  rw [generate, passed]
  simp only
  rcases checked.call cancellation .generate summarizer.surroundings.generate model input with
    ⟨_ | ⟨cause | reply⟩, after⟩
  all_goals rfl

theorem generate_beside
    (summarizer : Summarizer)
    (cancellation : Cancellation)
    (model input : String)
    (tokens : UInt64)
    (session : Session) :
    summarizer.Beside cancellation session
      (summarizer.generate .never model input tokens session)
      (summarizer.generate cancellation model input tokens session) := by
  have checks :
      summarizer.Course (Event.Undisturbed cancellation) session
        (summarizer.check tokens session).2 :=
    .single (.check tokens) trivial
  cases verdict : summarizer.check tokens session with
  | mk outcome checked =>
      rw [verdict] at checks
      cases outcome with
      | error exceeded =>
          unfold generate
          rw [verdict]
          exact .same (by simp) rfl checks
      | ok done =>
          rw [generate_eq verdict, generate_eq verdict]
          refine ((call_beside summarizer.awaits_generate cancellation model input checked).bind
            (fun _ => rfl) ?_).after checks
          intro result after
          cases result with
          | error cause => exact .same (by simp [afterCall]) rfl .stay
          | ok reply =>
              unfold afterCall
              simp only
              split
              · exact .same (by simp) rfl .stay
              · exact .same (by simp) rfl (.single (.record _) trivial)

/-- What follows the search for an input that fits. -/
def afterFit
    (summarizer : Summarizer)
    (cancellation : Cancellation)
    (model : String) : Ended (String × UInt64) × Session → Ended String × Session
  | (.cancelled, after) => (.cancelled, after)
  | (.finished (.error cause), after) => (.finished (.error cause), after)
  | (.finished (.ok (input, tokens)), after) =>
      summarizer.generate cancellation model input tokens after

theorem attempt_eq
    {summarizer : Summarizer}
    {cancellation : Cancellation}
    {request : Request}
    {descriptor : Model.Descriptor}
    {credential : String}
    {session connected : Session}
    (keyed : summarizer.credential? = some credential)
    (connects : summarizer.connect credential session = (.ok (), connected)) :
    summarizer.attempt cancellation request descriptor session =
      summarizer.afterFit cancellation descriptor.providerName
        (summarizer.fit cancellation descriptor.providerName
          (summarizer.limitFor request descriptor) request.input connected) := by
  unfold attempt limitFor
  rw [keyed]
  simp only
  rw [connects]
  simp only
  rcases summarizer.fit cancellation descriptor.providerName _ request.input connected with
    ⟨_ | ⟨cause | fitted⟩, after⟩
  all_goals rfl

theorem attempt_beside
    (summarizer : Summarizer)
    (cancellation : Cancellation)
    (request : Request)
    (descriptor : Model.Descriptor)
    (session : Session) :
    summarizer.Beside cancellation session
      (summarizer.attempt .never request descriptor session)
      (summarizer.attempt cancellation request descriptor session) := by
  cases keyed : summarizer.credential? with
  | none =>
      unfold attempt
      rw [keyed]
      exact .same (by simp) rfl .stay
  | some credential =>
      have connects :
          summarizer.Course (Event.Undisturbed cancellation) session
            (summarizer.connect credential session).2 :=
        connect_course fun _ => trivial
      cases connection : summarizer.connect credential session with
      | mk outcome connected =>
          rw [connection] at connects
          cases outcome with
          | error cause =>
              unfold attempt
              rw [keyed]
              simp only
              rw [connection]
              exact .same (by simp) rfl connects
          | ok done =>
              rw [attempt_eq keyed connection, attempt_eq keyed connection]
              refine ((summarizer.fit_beside cancellation descriptor.providerName
                (summarizer.limitFor request descriptor) request.input connected).bind
                (fun _ => rfl) ?_).after connects
              intro result after
              cases result with
              | error cause => exact .same (by simp [afterFit]) rfl .stay
              | ok fitting =>
                  exact summarizer.generate_beside cancellation _ _ _ _

end Summarizer

end Precis.Summary

import Mathlib.Data.List.Induction
import Precis.Proofs.Summary.Attempt

/-!
Contract: the walk over candidates, one candidate at a time.

This module owns the sessions that a walk passes through, the candidate whose
turn it is, and the endings of a walk. `walk_stops` is the only place where the
recursion over the candidates is opened. From it follow what a whole request
and a whole run of requests preserve, and where each event of a run belongs.
-/

namespace Precis.Summary

namespace Summarizer

/-! ### What an attempt settles -/

/-- An attempt that leaves a request to the next candidate: it brought an empty
text, or a cause that does not end the request. -/
def Fails : Except Error String → Prop
  | .ok text => text = ""
  | .error cause => cause.isFatal = false

/-- An attempt that ends a request, and with what. -/
inductive Settles (model : Model.Id) : Except Error String → Except Error Digest → Prop where
  | summary {text : String} (notEmpty : text ≠ "") :
      Settles model (.ok text) (.ok { text, model })
  | fatal {cause : Error} (fatal : cause.isFatal = true) :
      Settles model (.error cause) (.error cause)

theorem conclusion?_eq_none_iff {model : Model.Id} {outcome : Except Error String} :
    walk.conclusion? model outcome = none ↔ Fails outcome := by
  cases outcome with
  | ok text => simp [walk.conclusion?, Fails]
  | error cause => simp [walk.conclusion?, Fails]

theorem conclusion?_eq_some_iff
    {model : Model.Id}
    {outcome : Except Error String}
    {result : Except Error Digest} :
    walk.conclusion? model outcome = some result ↔ Settles model outcome result := by
  constructor
  · intro concludes
    cases outcome with
    | ok text =>
        simp only [walk.conclusion?, Option.ite_none_left_eq_some] at concludes
        obtain ⟨notEmpty, same⟩ := concludes
        rw [← Option.some.inj same]
        exact .summary notEmpty
    | error cause =>
        simp only [walk.conclusion?, Option.ite_none_right_eq_some] at concludes
        obtain ⟨fatal, same⟩ := concludes
        rw [← Option.some.inj same]
        exact .fatal fatal
  · intro settles
    cases settles with
    | summary notEmpty => exact if_neg notEmpty
    | fatal fatal => exact if_pos fatal

/-! ### The walk -/

/-- The session before a candidate's turn: each candidate that was tried failed
in a way that left it to the next one, and the pause after it came to its end. -/
inductive Reaches
    (summarizer : Summarizer)
    (cancellation : Cancellation)
    (request : Request)
    (start : Session) : List Model.Id → Session → Prop where
  | start : Reaches summarizer cancellation request start [] start
  | pass
      {tried : List Model.Id}
      {reached : Session}
      {model : Model.Id}
      {descriptor : Model.Descriptor}
      {outcome : Except Error String}
      (reaches : Reaches summarizer cancellation request start tried reached)
      (described : summarizer.catalog.descriptor? model = some descriptor)
      (live : reached.isCancelledBy cancellation reached.now = false)
      (attempted :
        (summarizer.attempt cancellation request descriptor reached).1 = .finished outcome)
      (fails : Fails outcome)
      (waited :
        ((summarizer.attempt cancellation request descriptor reached).2.pause cancellation
          summarizer.backoff).1 = .finished (.ok ())) :
      Reaches summarizer cancellation request start (tried ++ [model])
        ((summarizer.attempt cancellation request descriptor reached).2.pause cancellation
          summarizer.backoff).2

/-- A candidate is about to be attempted. -/
structure InTurn
    (summarizer : Summarizer)
    (cancellation : Cancellation)
    (request : Request)
    (all : List Model.Id)
    (start : Session)
    (tried rest : List Model.Id)
    (model : Model.Id)
    (descriptor : Model.Descriptor)
    (reached : Session) : Prop where
  split : all = tried ++ model :: rest
  reaches : summarizer.Reaches cancellation request start tried reached
  described : summarizer.catalog.descriptor? model = some descriptor
  live : reached.isCancelledBy cancellation reached.now = false

/-- The endings of a walk over all the candidates. -/
inductive Stops
    (summarizer : Summarizer)
    (cancellation : Cancellation)
    (request : Request)
    (all : List Model.Id)
    (start : Session) : Except Error Digest → Session → Prop where
  | empty (noCandidates : all = []) :
      Stops summarizer cancellation request all start (.error (allFailed all)) start
  | unmapped
      {tried rest model reached}
      (split : all = tried ++ model :: rest)
      (reaches : summarizer.Reaches cancellation request start tried reached)
      (undescribed : summarizer.catalog.descriptor? model = none) :
      Stops summarizer cancellation request all start
        (.error (.unsupportedModel model.name)) reached
  | forestalled
      {tried rest model descriptor reached}
      (split : all = tried ++ model :: rest)
      (reaches : summarizer.Reaches cancellation request start tried reached)
      (described : summarizer.catalog.descriptor? model = some descriptor)
      (cancelled : reached.isCancelledBy cancellation reached.now = true) :
      Stops summarizer cancellation request all start (.error .cancelled) reached
  | abandoned
      {tried rest model descriptor reached}
      (turn :
        summarizer.InTurn cancellation request all start tried rest model descriptor reached)
      (attempted :
        (summarizer.attempt cancellation request descriptor reached).1 = .cancelled) :
      Stops summarizer cancellation request all start (.error .cancelled)
        (summarizer.attempt cancellation request descriptor reached).2
  | settled
      {tried rest model descriptor reached outcome result}
      (turn :
        summarizer.InTurn cancellation request all start tried rest model descriptor reached)
      (attempted :
        (summarizer.attempt cancellation request descriptor reached).1 = .finished outcome)
      (settles : Settles model outcome result) :
      Stops summarizer cancellation request all start result
        (summarizer.attempt cancellation request descriptor reached).2
  | exhausted
      {tried model descriptor reached outcome}
      (turn :
        summarizer.InTurn cancellation request all start tried [] model descriptor reached)
      (attempted :
        (summarizer.attempt cancellation request descriptor reached).1 = .finished outcome)
      (fails : Fails outcome) :
      Stops summarizer cancellation request all start (.error (allFailed all))
        (summarizer.attempt cancellation request descriptor reached).2
  | interrupted
      {tried rest model descriptor reached outcome}
      (turn :
        summarizer.InTurn cancellation request all start tried rest model descriptor reached)
      (attempted :
        (summarizer.attempt cancellation request descriptor reached).1 = .finished outcome)
      (fails : Fails outcome)
      (interrupted :
        ((summarizer.attempt cancellation request descriptor reached).2.pause cancellation
          summarizer.backoff).1 = .cancelled) :
      Stops summarizer cancellation request all start (.error .cancelled)
        ((summarizer.attempt cancellation request descriptor reached).2.pause cancellation
          summarizer.backoff).2

/-! ### One candidate -/

theorem eq_mk_of_fst_eq {α β : Type} {pair : α × β} {first : α} (same : pair.1 = first) :
    pair = (first, pair.2) :=
  Prod.ext same rfl

section Turn

variable {summarizer : Summarizer} {cancellation : Cancellation} {request : Request}
  {all rest : List Model.Id} {model next : Model.Id} {descriptor : Model.Descriptor}
  {session : Session} {outcome : Except Error String}
  (described : summarizer.catalog.descriptor? model = some descriptor)
  (live : session.isCancelledBy cancellation session.now = false)

include described live

theorem walk_of_cancelled
    (attempted :
      (summarizer.attempt cancellation request descriptor session).1 = .cancelled) :
    summarizer.walk cancellation request all (model :: rest) session =
      (.error .cancelled, (summarizer.attempt cancellation request descriptor session).2) := by
  rw [walk, described]
  simp only
  rw [live, eq_mk_of_fst_eq attempted]
  rfl

variable
  (attempted :
    (summarizer.attempt cancellation request descriptor session).1 = .finished outcome)

include attempted

theorem walk_of_finished :
    summarizer.walk cancellation request all (model :: rest) session =
      let after := (summarizer.attempt cancellation request descriptor session).2
      match walk.conclusion? model outcome with
      | some result => (result, after)
      | none =>
          if rest.isEmpty then (.error (allFailed all), after)
          else
            match after.pause cancellation summarizer.backoff with
            | (.cancelled, paused) => (.error .cancelled, paused)
            | (.finished _, paused) => summarizer.walk cancellation request all rest paused := by
  rw [walk, described]
  simp only
  rw [live, eq_mk_of_fst_eq attempted]
  rfl

theorem walk_of_settles
    {result : Except Error Digest}
    (settles : Settles model outcome result) :
    summarizer.walk cancellation request all (model :: rest) session =
      (result, (summarizer.attempt cancellation request descriptor session).2) := by
  rw [walk_of_finished described live attempted, conclusion?_eq_some_iff.mpr settles]

variable (fails : Fails outcome)

include fails

theorem walk_of_fails_last :
    summarizer.walk cancellation request all [model] session =
      (.error (allFailed all),
        (summarizer.attempt cancellation request descriptor session).2) := by
  rw [walk_of_finished described live attempted, conclusion?_eq_none_iff.mpr fails]
  rfl

theorem walk_of_interrupted
    (interrupted :
      ((summarizer.attempt cancellation request descriptor session).2.pause cancellation
        summarizer.backoff).1 = .cancelled) :
    summarizer.walk cancellation request all (model :: next :: rest) session =
      (.error .cancelled,
        ((summarizer.attempt cancellation request descriptor session).2.pause cancellation
          summarizer.backoff).2) := by
  rw [walk_of_finished described live attempted, conclusion?_eq_none_iff.mpr fails]
  simp only
  rw [if_neg (by simp), eq_mk_of_fst_eq interrupted]

theorem walk_of_fails
    (waited :
      ((summarizer.attempt cancellation request descriptor session).2.pause cancellation
        summarizer.backoff).1 = .finished (.ok ())) :
    summarizer.walk cancellation request all (model :: next :: rest) session =
      summarizer.walk cancellation request all (next :: rest)
        ((summarizer.attempt cancellation request descriptor session).2.pause cancellation
          summarizer.backoff).2 := by
  rw [walk_of_finished described live attempted, conclusion?_eq_none_iff.mpr fails]
  simp only
  rw [if_neg (by simp), eq_mk_of_fst_eq waited]

end Turn

/-- With one candidate the walk stops, or goes on with the rest of them. -/
theorem walk_step
    {summarizer : Summarizer}
    {cancellation : Cancellation}
    {request : Request}
    {start session : Session}
    {all tried rest : List Model.Id}
    {model : Model.Id}
    (split : all = tried ++ model :: rest)
    (reaches : summarizer.Reaches cancellation request start tried session) :
    summarizer.Stops cancellation request all start
        (summarizer.walk cancellation request all (model :: rest) session).1
        (summarizer.walk cancellation request all (model :: rest) session).2 ∨
      rest ≠ [] ∧ ∃ paused,
        summarizer.Reaches cancellation request start (tried ++ [model]) paused ∧
          summarizer.walk cancellation request all (model :: rest) session =
            summarizer.walk cancellation request all rest paused := by
  cases described : summarizer.catalog.descriptor? model with
  | none =>
      rw [walk, described]
      exact .inl (.unmapped split reaches described)
  | some descriptor =>
      cases live : session.isCancelledBy cancellation session.now with
      | true =>
          rw [walk, described]
          simp only
          rw [live]
          exact .inl (.forestalled split reaches described live)
      | false =>
          have turn : summarizer.InTurn cancellation request all start tried rest model descriptor
              session := ⟨split, reaches, described, live⟩
          cases attempted : (summarizer.attempt cancellation request descriptor session).1 with
          | cancelled =>
              rw [walk_of_cancelled described live attempted]
              exact .inl (.abandoned turn attempted)
          | finished outcome =>
              cases concluded : walk.conclusion? model outcome with
              | some result =>
                  have settles := conclusion?_eq_some_iff.mp concluded
                  rw [walk_of_settles described live attempted settles]
                  exact .inl (.settled turn attempted settles)
              | none =>
                  have fails := conclusion?_eq_none_iff.mp concluded
                  cases rest with
                  | nil =>
                      rw [walk_of_fails_last described live attempted fails]
                      exact .inl (.exhausted turn attempted fails)
                  | cons next others =>
                      rcases Session.pause_fst_cases
                        (summarizer.attempt cancellation request descriptor session).2
                        cancellation summarizer.backoff with interrupted | waited
                      · rw [walk_of_interrupted described live attempted fails interrupted]
                        exact .inl (.interrupted turn attempted fails interrupted)
                      · exact .inr ⟨by simp, _,
                          reaches.pass described live attempted fails waited,
                          walk_of_fails described live attempted fails waited⟩

theorem walk_stops
    {summarizer : Summarizer}
    {cancellation : Cancellation}
    {request : Request}
    {start : Session}
    {all tried rest : List Model.Id}
    {model : Model.Id}
    {session : Session}
    (split : all = tried ++ model :: rest)
    (reaches : summarizer.Reaches cancellation request start tried session) :
    summarizer.Stops cancellation request all start
      (summarizer.walk cancellation request all (model :: rest) session).1
      (summarizer.walk cancellation request all (model :: rest) session).2 := by
  -- The rest gets shorter while what was tried gets longer, and `all` stays their sum.
  induction rest generalizing tried model session with
  | nil =>
      rcases walk_step split reaches with stops | ⟨notLast, -⟩
      · exact stops
      · contradiction
  | cons next others inductionHypothesis =>
      rcases walk_step split reaches with stops | ⟨-, paused, passed, walkEq⟩
      · exact stops
      · rw [walkEq]
        refine inductionHypothesis ?_ passed
        rw [split, List.append_assoc]
        rfl

/-- A walk that comes to a candidate's turn goes on from there. -/
theorem walk_of_reaches
    {summarizer : Summarizer}
    {cancellation : Cancellation}
    {request : Request}
    {start reached : Session}
    {all tried rest : List Model.Id}
    {model : Model.Id}
    (reaches : summarizer.Reaches cancellation request start tried reached)
    (split : all = tried ++ model :: rest) :
    summarizer.walk cancellation request all all start =
      summarizer.walk cancellation request all (model :: rest) reached := by
  induction reaches generalizing model rest with
  | start =>
      rw [List.nil_append] at split
      rw [← split]
  | pass reaches described live attempted fails waited inductionHypothesis =>
      rw [List.append_assoc] at split
      rw [inductionHypothesis split]
      exact walk_of_fails described live attempted fails waited

theorem summarize_supported
    (summarizer : Summarizer)
    (cancellation : Cancellation)
    (request : Request)
    (session : Session)
    (supported : summarizer.catalog.supports request.family = true) :
    summarizer.summarize cancellation request session =
      summarizer.walk cancellation request (summarizer.candidates request)
        (summarizer.candidates request) session :=
  if_pos supported

theorem summarize_unsupported
    (summarizer : Summarizer)
    (cancellation : Cancellation)
    (request : Request)
    (session : Session)
    (unsupported : summarizer.catalog.supports request.family = false) :
    summarizer.summarize cancellation request session =
      (.error (.unsupportedFamily request.family.name), session) := by
  unfold summarize
  rw [if_neg (by simp [unsupported])]

theorem summarize_stops
    (summarizer : Summarizer)
    (cancellation : Cancellation)
    (request : Request)
    (session : Session)
    (supported : summarizer.catalog.supports request.family = true) :
    summarizer.Stops cancellation request (summarizer.candidates request) session
      (summarizer.summarize cancellation request session).1
      (summarizer.summarize cancellation request session).2 := by
  rw [summarizer.summarize_supported _ _ _ supported]
  cases candidatesEq : summarizer.candidates request with
  | nil => exact .empty rfl
  | cons model rest => exact walk_stops rfl .start

/-! ### Runs of requests -/

/-- A request, and when it is cancelled. -/
structure Use where
  request : Request
  cancellation : Cancellation

/-- The session after requests that are carried out one after another. -/
def run (summarizer : Summarizer) (start : Session) (uses : List Use) : Session :=
  uses.foldl
    (fun session use => (summarizer.summarize use.cancellation use.request session).2) start

theorem run_concat (summarizer : Summarizer) (start : Session) (uses : List Use) (use : Use) :
    summarizer.run start (uses ++ [use]) =
      (summarizer.summarize use.cancellation use.request (summarizer.run start uses)).2 := by
  unfold run
  rw [List.foldl_append]
  rfl

/-- The sessions that a run comes to between one attempt or pause and the next. -/
inductive Stretches
    (summarizer : Summarizer)
    (start : Session)
    (uses : List Use) : Session → Prop where
  | start : Stretches summarizer start uses start
  | attempt
      {earlier use later tried rest model descriptor reached}
      (before : Stretches summarizer start uses reached)
      (split : uses = earlier ++ use :: later)
      (turn :
        summarizer.InTurn use.cancellation use.request (summarizer.candidates use.request)
          (summarizer.run start earlier) tried rest model descriptor reached) :
      Stretches summarizer start uses
        (summarizer.attempt use.cancellation use.request descriptor reached).2
  | pause
      {session : Session}
      (cancellation : Cancellation)
      (length : Duration)
      (before : Stretches summarizer start uses session) :
      Stretches summarizer start uses (session.pause cancellation length).2

namespace Stretches

variable {summarizer : Summarizer} {start session : Session} {uses : List Use}

theorem append (stretches : summarizer.Stretches start uses session) (more : List Use) :
    summarizer.Stretches start (uses ++ more) session := by
  induction stretches with
  | start => exact .start
  | @attempt earlier use later _ _ _ _ _ before split turn inductionHypothesis =>
      have moreSplit : uses ++ more = earlier ++ use :: (later ++ more) := by
        rw [split, List.append_assoc]
        rfl
      exact .attempt inductionHypothesis moreSplit turn
  | pause cancellation length before inductionHypothesis =>
      exact .pause cancellation length inductionHypothesis

/-- A request leads from stretch to stretch. -/
theorem reaches
    {earlier later : List Use}
    {use : Use}
    {tried more : List Model.Id}
    {reached : Session}
    (begun : summarizer.Stretches start uses (summarizer.run start earlier))
    (usesSplit : uses = earlier ++ use :: later)
    (reaches :
      summarizer.Reaches use.cancellation use.request (summarizer.run start earlier) tried
        reached)
    (split : summarizer.candidates use.request = tried ++ more) :
    summarizer.Stretches start uses reached := by
  induction reaches generalizing more with
  | start => exact begun
  | pass reaches described live attempted fails waited inductionHypothesis =>
      rw [List.append_assoc] at split
      exact .pause _ _
        (.attempt (inductionHypothesis split) usesSplit ⟨split, reaches, described, live⟩)

theorem stops
    {earlier later : List Use}
    {use : Use}
    {result : Except Error Digest}
    (begun : summarizer.Stretches start uses (summarizer.run start earlier))
    (usesSplit : uses = earlier ++ use :: later)
    (stops :
      summarizer.Stops use.cancellation use.request (summarizer.candidates use.request)
        (summarizer.run start earlier) result session) :
    summarizer.Stretches start uses session := by
  cases stops with
  | empty none => exact begun
  | unmapped split reaches undescribed => exact begun.reaches usesSplit reaches split
  | forestalled split reaches described cancelled => exact begun.reaches usesSplit reaches split
  | abandoned turn attempted =>
      exact .attempt (begun.reaches usesSplit turn.reaches turn.split) usesSplit turn
  | settled turn attempted settles =>
      exact .attempt (begun.reaches usesSplit turn.reaches turn.split) usesSplit turn
  | exhausted turn attempted fails =>
      exact .attempt (begun.reaches usesSplit turn.reaches turn.split) usesSplit turn
  | interrupted turn attempted fails interrupted =>
      exact .pause _ _
        (.attempt (begun.reaches usesSplit turn.reaches turn.split) usesSplit turn)

/-- What attempts and pauses preserve, a run preserves. -/
theorem invariant
    {P : Session → Prop}
    (stretches : summarizer.Stretches start uses session)
    (attempts : ∀ cancellation request descriptor session, P session →
      P (summarizer.attempt cancellation request descriptor session).2)
    (pauses : ∀ cancellation length session, P session →
      P (Session.pause session cancellation length).2)
    (holds : P start) :
    P session := by
  induction stretches with
  | start => exact holds
  | attempt before split turn inductionHypothesis => exact attempts _ _ _ _ inductionHypothesis
  | pause cancellation length before inductionHypothesis => exact pauses _ _ _ inductionHypothesis

end Stretches

theorem run_stretches (summarizer : Summarizer) (start : Session) (uses : List Use) :
    summarizer.Stretches start uses (summarizer.run start uses) := by
  induction uses using List.reverseRecOn with
  | nil => exact .start
  | append_singleton earlier use inductionHypothesis =>
      rw [run_concat]
      have begun := inductionHypothesis.append [use]
      cases supported : summarizer.catalog.supports use.request.family with
      | false =>
          rw [summarizer.summarize_unsupported _ _ _ supported]
          exact begun
      | true => exact begun.stops rfl (summarizer.summarize_stops _ _ _ supported)

/-! ### The events of a run -/

/-- Where an event of a run belongs: to the attempt with the candidate whose turn
it was, or to a pause. -/
inductive RunRule
    (summarizer : Summarizer)
    (start : Session)
    (uses : List Use) : Event → Log → Prop where
  | attempt
      {earlier use later tried rest model descriptor reached event before}
      (split : uses = earlier ++ use :: later)
      (turn :
        summarizer.InTurn use.cancellation use.request (summarizer.candidates use.request)
          (summarizer.run start earlier) tried rest model descriptor reached)
      (begun : reached.log <:+ before)
      (place :
        event :: before <:+
          (summarizer.attempt use.cancellation use.request descriptor reached).2.log)
      (kept : summarizer.AttemptRule use.request descriptor event before) :
      RunRule summarizer start uses event before
  | pause (started ended : Moment) (before : Log) :
      RunRule summarizer start uses (.pause started ended) before

theorem pause_course
    (summarizer : Summarizer)
    {rule : Event → Log → Prop}
    (session : Session)
    (cancellation : Cancellation)
    (length : Duration)
    (kept : ∀ started ended, rule (.pause started ended) session.log) :
    summarizer.Course rule session (session.pause cancellation length).2 := by
  obtain ⟨ended, later, pauseEq⟩ := session.pause_eq cancellation length
  rw [pauseEq]
  exact .single (.pause ended later) (kept _ _)

theorem Stretches.course
    {summarizer : Summarizer}
    {start session : Session}
    {uses : List Use}
    (stretches : summarizer.Stretches start uses session) :
    summarizer.Course (summarizer.RunRule start uses) start session := by
  induction stretches with
  | start => exact .stay
  | @attempt _ use _ _ _ _ descriptor reached before split turn inductionHypothesis =>
      have course :=
        (summarizer.attempt_course use.cancellation use.request descriptor reached).placed
      refine inductionHypothesis.trans (course.mono ?_)
      rintro event log ⟨kept, begun, place⟩
      exact .attempt split turn begun place kept
  | pause cancellation length before inductionHypothesis =>
      exact inductionHypothesis.trans
        (summarizer.pause_course _ _ _ fun _ _ => .pause _ _ _)

/-- Every event of a run belongs to an attempt, and keeps its rule, or to a pause. -/
theorem run_course (summarizer : Summarizer) (start : Session) (uses : List Use) :
    summarizer.Course (summarizer.RunRule start uses) start (summarizer.run start uses) :=
  (summarizer.run_stretches start uses).course

end Summarizer

end Precis.Summary

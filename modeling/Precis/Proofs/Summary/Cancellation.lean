import Precis.Proofs.Summary.Accounting
import Precis.Proofs.Summary.Fallback

/-!
Contract: a cancelled request beside the same request that nobody cancels.

This module owns the comparison of the two. A cancellation either changes
nothing at all, or the request ends with it: what was asked of the surroundings
until then is the beginning of what the whole request asks, and the ledger is
the one that the whole request had at that point. A candidate whose turn comes
after the cancellation is never attempted.
-/

namespace Precis.Summary

/-! ### What is asked of the surroundings -/

/-- A call of the factory or of a model. -/
inductive Asked where
  | handle (credential : String)
  | count (model input : String)
  | generate (model input : String)
deriving DecidableEq, Repr

/-- What an event asks of the surroundings, whether it is answered or not. -/
def Event.asked? : Event → Option Asked
  | .create credential _ => some (.handle credential)
  | .count call => some (.count call.model call.input)
  | .generate call => some (.generate call.model call.input)
  | _ => none

/-- Everything that was asked, oldest first. -/
def Log.asked (log : Log) : List Asked :=
  (log.filterMap Event.asked?).reverse

theorem Log.asked_prefix_of_suffix {earlier later : Log} (grown : earlier <:+ later) :
    earlier.asked <+: later.asked := by
  unfold Log.asked
  rw [List.reverse_prefix]
  exact grown.filterMap _

@[simp] theorem Event.asked?_brokenOff (event : Event) (moment : Moment) :
    (event.brokenOff moment).asked? = event.asked? := by
  cases event <;> rfl

/-- Breaking off a wait asks for nothing else than the wait itself. -/
theorem Log.asked_brokenOff (event : Event) (moment : Moment) (before : Log) :
    Log.asked (event.brokenOff moment :: before) = Log.asked (event :: before) := by
  unfold Log.asked
  simp only [List.filterMap_cons, Event.asked?_brokenOff]

/-- A wait that is broken off records nothing. -/
theorem Log.recorded_brokenOff
    {event : Event}
    (waits : event.IsWait)
    (moment : Moment)
    (before : Log) :
    Log.recorded (event.brokenOff moment :: before) = Log.recorded before := by
  cases event with
  | count call => rfl
  | generate call => rfl
  | pause started ended => rfl
  | create credential answer => contradiction
  | check now cost verdict => contradiction
  | record now cost => contradiction

namespace Summarizer

theorem Happens.le_now
    {summarizer : Summarizer}
    {session after : Session}
    {event : Event}
    (happens : summarizer.Happens session event after) :
    session.now ≤ after.now := by
  cases happens with
  | create credential unconnected => exact Nat.le_refl _
  | count call placed => exact placed.le_ended
  | check cost => exact Nat.le_refl _
  | generate call placed => exact placed.le_ended
  | record cost => exact Nat.le_refl _
  | pause ended le_ended => exact le_ended

/-- Time does not run back along a course. -/
theorem Course.le_now
    {summarizer : Summarizer}
    {rule : Event → Log → Prop}
    {start session : Session}
    (course : summarizer.Course rule start session) :
    start.now ≤ session.now := by
  refine course.invariant (P := fun session => start.now ≤ session.now) ?_ (Nat.le_refl _)
  intro before event after happens _ earlier
  exact Nat.le_trans earlier happens.le_now

namespace CutsShort

variable {summarizer : Summarizer} {cancellation : Cancellation} {start full cut : Session}

theorem asked_prefix (short : summarizer.CutsShort cancellation start full cut) :
    cut.log.asked <+: full.log.asked := by
  cases short with
  | between passed ahead come => exact Log.asked_prefix_of_suffix ahead.log_suffix
  | @during point after event moment passed happens waits ahead come inTime =>
      have grown := ahead.log_suffix
      rw [happens.log_eq] at grown
      show Log.asked (event.brokenOff (max point.now moment) :: point.log) <+: full.log.asked
      rw [Log.asked_brokenOff]
      exact Log.asked_prefix_of_suffix grown

/-- The point that the whole course passes where its shortened copy ends: the two
have done the same there, and the copy ends as soon as it is cancelled. -/
theorem exists_point (short : summarizer.CutsShort cancellation start full cut) :
    ∃ point moment,
      summarizer.Leads start point ∧ summarizer.Leads point full ∧
        cut.ledger = point.ledger ∧ cut.connected = point.connected ∧
        cut.log.recorded = point.log.recorded ∧
        (∃ known, point.log <:+ known ∧ cancellation known = some moment) ∧
        cut.now = max point.now moment ∧ cut.now ≤ full.now := by
  cases short with
  | between passed ahead come =>
      obtain ⟨moment, told, byNow⟩ := come
      exact ⟨cut, moment, passed.leads, ahead, rfl, rfl, rfl,
        ⟨_, List.suffix_refl _, told⟩, (Nat.max_eq_left byNow).symm, ahead.le_now⟩
  | @during point after event moment passed happens waits ahead come inTime =>
      have onwards : summarizer.Leads point full := (Course.single happens trivial).trans ahead
      have known : point.log <:+ event.during point.log := by
        cases event with
        | count call => exact List.suffix_cons _ _
        | generate call => exact List.suffix_cons _ _
        | pause started ended => exact List.suffix_refl _
        | create credential answer => contradiction
        | check now cost verdict => contradiction
        | record now cost => contradiction
      refine ⟨point, moment, passed.leads, onwards, rfl, rfl,
        Log.recorded_brokenOff waits _ _, ⟨_, known, come⟩, rfl, ?_⟩
      have later := ahead.le_now
      exact Nat.max_le.mpr ⟨Nat.le_trans happens.le_now later, Nat.le_trans inTime later⟩

end CutsShort

/-! ### The walk without a cancellation -/

theorem walk_never_cases
    {summarizer : Summarizer}
    {request : Request}
    {all rest : List Model.Id}
    {model : Model.Id}
    {descriptor : Model.Descriptor}
    {session : Session}
    (described : summarizer.catalog.descriptor? model = some descriptor) :
    (summarizer.walk .never request all (model :: rest) session).2 =
        (summarizer.attempt .never request descriptor session).2 ∨
      summarizer.walk .never request all (model :: rest) session =
        summarizer.walk .never request all rest
          ((summarizer.attempt .never request descriptor session).2.pause .never
            summarizer.backoff).2 := by
  cases attempted : (summarizer.attempt .never request descriptor session).1 with
  | cancelled => exact absurd attempted (summarizer.attempt_never_ne _ _ _)
  | finished outcome =>
      cases concluded : walk.conclusion? model outcome with
      | some result =>
          left
          rw [walk_of_settles described rfl attempted (conclusion?_eq_some_iff.mp concluded)]
      | none =>
          have fails := conclusion?_eq_none_iff.mp concluded
          cases rest with
          | nil =>
              left
              rw [walk_of_fails_last described rfl attempted fails]
          | cons next others =>
              right
              exact walk_of_fails described rfl attempted fails (Session.pause_never_fst _ _)

/-- Everything that a walk does comes after what happened before it. -/
theorem walk_leads
    (summarizer : Summarizer)
    (request : Request)
    (all remaining : List Model.Id)
    (session : Session) :
    summarizer.Leads session (summarizer.walk .never request all remaining session).2 := by
  induction remaining generalizing session with
  | nil => exact .stay
  | cons model rest inductionHypothesis =>
      cases described : summarizer.catalog.descriptor? model with
      | none =>
          rw [walk, described]
          exact .stay
      | some descriptor =>
          have attempts := (summarizer.attempt_beside .never request descriptor session).leads
          rcases walk_never_cases described with ends | continues
          · rw [ends]
            exact attempts
          · rw [continues]
            have pauses := (summarizer.pause_beside .never summarizer.backoff
              (summarizer.attempt .never request descriptor session).2).leads
            exact (attempts.trans pauses).trans (inductionHypothesis _)

/-- A walk goes on from its first attempt. -/
theorem walk_leads_of_attempt
    {summarizer : Summarizer}
    {request : Request}
    {all rest : List Model.Id}
    {model : Model.Id}
    {descriptor : Model.Descriptor}
    {session : Session}
    (described : summarizer.catalog.descriptor? model = some descriptor) :
    summarizer.Leads (summarizer.attempt .never request descriptor session).2
      (summarizer.walk .never request all (model :: rest) session).2 := by
  rcases walk_never_cases described with ends | continues
  · rw [ends]
    exact .stay
  · rw [continues]
    have pauses := (summarizer.pause_beside .never summarizer.backoff
      (summarizer.attempt .never request descriptor session).2).leads
    exact pauses.trans (summarizer.walk_leads _ _ _ _)

/-! ### The two requests side by side -/

section Comparison

variable {summarizer : Summarizer} {cancellation : Cancellation} {request : Request}
  {start reached : Session} {tried rest : List Model.Id} {model : Model.Id}

/-- A turn that comes in spite of a cancellation would have come without it too. -/
theorem Reaches.undisturbed
    (reaches : summarizer.Reaches cancellation request start tried reached) :
    summarizer.Reaches .never request start tried reached ∧
      summarizer.Course (Event.Undisturbed cancellation) start reached := by
  induction reaches with
  | start => exact ⟨.start, .stay⟩
  | @pass tried reached model descriptor outcome _ described live attempted fails waited
      inductionHypothesis =>
      obtain ⟨reachesNever, course⟩ := inductionHypothesis
      obtain ⟨attemptEq, attemptCourse⟩ :=
        (summarizer.attempt_beside cancellation request descriptor reached).eq_of_finished
          attempted
      obtain ⟨pauseEq, pauseCourse⟩ :=
        (summarizer.pause_beside cancellation summarizer.backoff _).eq_of_finished waited
      rw [attemptEq] at attempted pauseEq pauseCourse ⊢
      rw [pauseEq]
      exact ⟨.pass reachesNever described rfl attempted fails (Session.pause_never_fst _ _),
        (course.trans attemptCourse).trans pauseCourse⟩

theorem summarize_of_reaches
    (supported : summarizer.catalog.supports request.family = true)
    (reaches : summarizer.Reaches cancellation request start tried reached)
    (split : summarizer.candidates request = tried ++ model :: rest) :
    summarizer.summarize cancellation request start =
      summarizer.walk cancellation request (summarizer.candidates request) (model :: rest)
        reached := by
  rw [summarizer.summarize_supported _ _ _ supported, walk_of_reaches reaches split]

/-- What a cancellation makes of a request. -/
theorem Stops.same_or_cutsShort
    {result : Except Error Digest}
    {final : Session}
    (supported : summarizer.catalog.supports request.family = true)
    (stops :
      summarizer.Stops cancellation request (summarizer.candidates request) start result final)
    (ends : summarizer.summarize cancellation request start = (result, final)) :
    (summarizer.summarize .never request start = (result, final) ∧
        summarizer.Course (Event.Undisturbed cancellation) start final) ∨
      (result = .error .cancelled ∧
        summarizer.CutsShort cancellation start
          (summarizer.summarize .never request start).2 final) := by
  cases stops with
  | empty none => exact .inl ⟨(FallsBack.exhausted supported (.none none)).summarize_eq, .stay⟩
  | unmapped split reaches undescribed =>
      obtain ⟨reachesNever, course⟩ := reaches.undisturbed
      exact .inl ⟨(FallsBack.unmapped supported split reachesNever undescribed).summarize_eq,
        course⟩
  | forestalled split reaches described cancelled =>
      obtain ⟨reachesNever, course⟩ := reaches.undisturbed
      right
      rw [summarize_of_reaches supported reachesNever split]
      exact ⟨rfl, .between course (summarizer.walk_leads _ _ _ _)
        (Session.isCancelledBy_iff.mp cancelled)⟩
  | @abandoned _ _ _ descriptor reached turn attempted =>
      obtain ⟨reachesNever, course⟩ := turn.reaches.undisturbed
      have short := (summarizer.attempt_beside cancellation request descriptor
        reached).cutsShort_of_cancelled attempted
      right
      rw [summarize_of_reaches supported reachesNever turn.split]
      exact ⟨rfl, (short.extend (walk_leads_of_attempt turn.described)).after course⟩
  | @settled _ _ _ descriptor reached _ _ turn attempted settles =>
      obtain ⟨reachesNever, course⟩ := turn.reaches.undisturbed
      obtain ⟨attemptEq, attemptCourse⟩ := (summarizer.attempt_beside cancellation request
        descriptor reached).eq_of_finished attempted
      left
      rw [attemptEq] at attempted ⊢
      exact ⟨(FallsBack.settled supported turn.split reachesNever turn.described attempted
        settles).summarize_eq, course.trans attemptCourse⟩
  | @exhausted _ _ descriptor reached _ turn attempted fails =>
      obtain ⟨reachesNever, course⟩ := turn.reaches.undisturbed
      obtain ⟨attemptEq, attemptCourse⟩ := (summarizer.attempt_beside cancellation request
        descriptor reached).eq_of_finished attempted
      left
      rw [attemptEq] at attempted ⊢
      exact ⟨(FallsBack.exhausted supported (.last turn.split reachesNever turn.described
        attempted fails)).summarize_eq, course.trans attemptCourse⟩
  | @interrupted _ rest _ descriptor reached _ turn attempted fails interrupted =>
      obtain ⟨reachesNever, course⟩ := turn.reaches.undisturbed
      obtain ⟨attemptEq, attemptCourse⟩ := (summarizer.attempt_beside cancellation request
        descriptor reached).eq_of_finished attempted
      have short := (summarizer.pause_beside cancellation summarizer.backoff
        _).cutsShort_of_cancelled interrupted
      right
      cases rest with
      | nil =>
          -- After the last candidate there is no pause that could be interrupted.
          rw [summarize_of_reaches supported turn.reaches turn.split,
            walk_of_fails_last turn.described turn.live attempted fails] at ends
          exact absurd (congrArg Prod.fst ends) (by simp [allFailed])
      | cons next others =>
          rw [attemptEq] at attempted short ⊢
          rw [summarize_of_reaches supported reachesNever turn.split,
            walk_of_fails turn.described rfl attempted fails (Session.pause_never_fst _ _)]
          exact ⟨rfl, (short.extend (summarizer.walk_leads _ _ _ _)).after
            (course.trans attemptCourse)⟩

end Comparison

/-- A request that is cancelled at any moment, beside the same request that is
not. Either the two are the same in everything, and every wait was over before
the cancellation came. Or the request ends as cancelled: it has asked for a
beginning of what the whole request asks for, its ledger and its records are
those of the whole request at a point that this passes, and it ends at the
cancellation, or at that point where the cancellation came before. A candidate
whose turn comes after the cancellation is not attempted. -/
theorem summarize_cancelled
    (summarizer : Summarizer)
    (cancellation : Cancellation)
    (request : Request)
    (start : Session) :
    let full := summarizer.summarize .never request start
    let cut := summarizer.summarize cancellation request start
    ((cut = full ∧ summarizer.Course (Event.Undisturbed cancellation) start full.2) ∨
      (cut.1 = .error .cancelled ∧
        summarizer.CutsShort cancellation start full.2 cut.2 ∧
        cut.2.log.asked <+: full.2.log.asked ∧
        ∃ point moment,
          summarizer.Leads start point ∧ summarizer.Leads point full.2 ∧
            cut.2.ledger = point.ledger ∧ cut.2.connected = point.connected ∧
            cut.2.log.recorded = point.log.recorded ∧
            (∃ known, point.log <:+ known ∧ cancellation known = some moment) ∧
            cut.2.now = max point.now moment ∧ cut.2.now ≤ full.2.now)) ∧
      ∀ tried model rest descriptor reached,
        summarizer.catalog.supports request.family = true →
        summarizer.candidates request = tried ++ model :: rest →
        summarizer.Reaches cancellation request start tried reached →
        summarizer.catalog.descriptor? model = some descriptor →
        cancellation.HasComeBy reached.log reached.now →
          cut = (.error .cancelled, reached) := by
  intro full cut
  constructor
  · cases supported : summarizer.catalog.supports request.family with
    | false =>
        left
        have cutEq : cut = _ := summarizer.summarize_unsupported _ _ _ supported
        have fullEq : full = _ := summarizer.summarize_unsupported _ _ _ supported
        rw [cutEq, fullEq]
        exact ⟨rfl, .stay⟩
    | true =>
        have stops := summarizer.summarize_stops cancellation request start supported
        rcases stops.same_or_cutsShort supported rfl with ⟨same, course⟩ | ⟨cancelled, short⟩
        · left
          have fullEq : full = cut := same
          rw [fullEq]
          exact ⟨rfl, course⟩
        · right
          exact ⟨cancelled, short, short.asked_prefix, short.exists_point⟩
  · intro tried model rest descriptor reached supported split reaches described come
    have cancelled := Session.isCancelledBy_iff.mpr come
    have cutEq : cut = _ := summarize_of_reaches supported reaches split
    rw [cutEq, walk, described]
    simp only
    rw [if_pos cancelled]

end Summarizer

end Precis.Summary

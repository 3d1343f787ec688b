import Precis.Proofs.Summary.Interruption

/-!
Contract: what a request does that is never cancelled.

This module owns `FallsBack`, the endings of such a request, with the session
in which each of them leaves the summarizer. These are its endings exactly: each
of them happens when its conditions are met, and there is no other.
-/

namespace Precis.Summary

/-! ### Without a cancellation -/

theorem Session.pause_never_fst (session : Session) (length : Duration) :
    (session.pause .never length).1 = .finished (.ok ()) :=
  congrArg Prod.fst (Summarizer.pause_never_eq session length)

namespace Summarizer

theorem attempt_never_ne
    (summarizer : Summarizer)
    (request : Request)
    (descriptor : Model.Descriptor)
    (session : Session) :
    (summarizer.attempt .never request descriptor session).1 ≠ .cancelled :=
  (summarizer.attempt_beside .never request descriptor session).finished

/-! ### The endings -/

/-- Every candidate was attempted and failed, and this is the session after it. -/
inductive Exhausts
    (summarizer : Summarizer)
    (request : Request)
    (start : Session) : Session → Prop where
  | none (empty : summarizer.candidates request = []) : Exhausts summarizer request start start
  | last
      {tried model descriptor reached outcome}
      (split : summarizer.candidates request = tried ++ [model])
      (reaches : summarizer.Reaches .never request start tried reached)
      (described : summarizer.catalog.descriptor? model = some descriptor)
      (attempted :
        (summarizer.attempt .never request descriptor reached).1 = .finished outcome)
      (fails : Fails outcome) :
      Exhausts summarizer request start
        (summarizer.attempt .never request descriptor reached).2

/-- The endings of a request that is never cancelled. -/
inductive FallsBack
    (summarizer : Summarizer)
    (request : Request)
    (start : Session) : Except Error Digest → Session → Prop where
  | unsupported (unsupported : summarizer.catalog.supports request.family = false) :
      FallsBack summarizer request start
        (.error (.unsupportedFamily request.family.name)) start
  | unmapped
      {tried model rest reached}
      (supported : summarizer.catalog.supports request.family = true)
      (split : summarizer.candidates request = tried ++ model :: rest)
      (reaches : summarizer.Reaches .never request start tried reached)
      (undescribed : summarizer.catalog.descriptor? model = none) :
      FallsBack summarizer request start (.error (.unsupportedModel model.name)) reached
  | settled
      {tried model rest descriptor reached outcome result}
      (supported : summarizer.catalog.supports request.family = true)
      (split : summarizer.candidates request = tried ++ model :: rest)
      (reaches : summarizer.Reaches .never request start tried reached)
      (described : summarizer.catalog.descriptor? model = some descriptor)
      (attempted :
        (summarizer.attempt .never request descriptor reached).1 = .finished outcome)
      (settles : Settles model outcome result) :
      FallsBack summarizer request start result
        (summarizer.attempt .never request descriptor reached).2
  | exhausted
      {final}
      (supported : summarizer.catalog.supports request.family = true)
      (exhausts : summarizer.Exhausts request start final) :
      FallsBack summarizer request start
        (.error (.allModelsFailed ((summarizer.candidates request).map Model.Id.name))) final

/-- No other ending is possible without a cancellation. -/
theorem Stops.fallsBack
    {summarizer : Summarizer}
    {request : Request}
    {start final : Session}
    {result : Except Error Digest}
    (supported : summarizer.catalog.supports request.family = true)
    (stops :
      summarizer.Stops .never request (summarizer.candidates request) start result final) :
    summarizer.FallsBack request start result final := by
  cases stops with
  | empty none => exact .exhausted supported (.none none)
  | unmapped split reaches undescribed => exact .unmapped supported split reaches undescribed
  | forestalled split reaches described cancelled => contradiction
  | abandoned turn attempted => exact absurd attempted (summarizer.attempt_never_ne _ _ _)
  | settled turn attempted settles =>
      exact .settled supported turn.split turn.reaches turn.described attempted settles
  | exhausted turn attempted fails =>
      exact .exhausted supported
        (.last turn.split turn.reaches turn.described attempted fails)
  | interrupted turn attempted fails interrupted =>
      rw [Session.pause_never_fst] at interrupted
      contradiction

/-- Each ending happens when its conditions are met. -/
theorem FallsBack.summarize_eq
    {summarizer : Summarizer}
    {request : Request}
    {start final : Session}
    {result : Except Error Digest}
    (fallsBack : summarizer.FallsBack request start result final) :
    summarizer.summarize .never request start = (result, final) := by
  cases fallsBack with
  | unsupported unsupported => exact summarizer.summarize_unsupported _ _ _ unsupported
  | unmapped supported split reaches undescribed =>
      rw [summarizer.summarize_supported _ _ _ supported, walk_of_reaches reaches split, walk,
        undescribed]
  | settled supported split reaches described attempted settles =>
      rw [summarizer.summarize_supported _ _ _ supported, walk_of_reaches reaches split]
      exact walk_of_settles described rfl attempted settles
  | exhausted supported exhausts =>
      rw [summarizer.summarize_supported _ _ _ supported]
      cases exhausts with
      | none empty =>
          rw [empty]
          rfl
      | last split reaches described attempted fails =>
          rw [walk_of_reaches reaches split]
          exact walk_of_fails_last described rfl attempted fails

theorem summarize_never_iff
    {summarizer : Summarizer}
    {request : Request}
    {start final : Session}
    {result : Except Error Digest} :
    summarizer.summarize .never request start = (result, final) ↔
      summarizer.FallsBack request start result final := by
  constructor
  · intro same
    have resultEq := congrArg Prod.fst same
    have finalEq := congrArg Prod.snd same
    simp only at resultEq finalEq
    cases supported : summarizer.catalog.supports request.family with
    | false =>
        rw [summarizer.summarize_unsupported _ _ _ supported] at resultEq finalEq
        rw [← resultEq, ← finalEq]
        exact .unsupported supported
    | true =>
        have stops := summarizer.summarize_stops .never request start supported
        rw [resultEq, finalEq] at stops
        exact stops.fallsBack supported
  · exact FallsBack.summarize_eq

/-- All candidates are said to have failed only when each of them was attempted. -/
theorem FallsBack.exhausts
    {summarizer : Summarizer}
    {request : Request}
    {start final : Session}
    {names : List String}
    (fallsBack :
      summarizer.FallsBack request start (.error (.allModelsFailed names)) final) :
    summarizer.catalog.supports request.family = true ∧
      summarizer.Exhausts request start final ∧
      names = (summarizer.candidates request).map Model.Id.name := by
  cases fallsBack with
  | settled supported split reaches described attempted settles =>
      cases settles with
      | fatal fatal => contradiction
  | exhausted supported exhausts => exact ⟨supported, exhausts, rfl⟩

theorem nodup_candidates (summarizer : Summarizer) (request : Request) :
    (summarizer.candidates request).Nodup := by
  unfold candidates
  split
  · simp
  · exact summarizer.catalog.distinct

/-- A request that is never cancelled has exactly the endings of `FallsBack`. No
candidate comes twice. The failure of all models is the answer exactly when
every candidate was attempted and failed, and it names them all in order. -/
theorem summarize_never (summarizer : Summarizer) (request : Request) (start : Session) :
    (∀ result final,
        summarizer.summarize .never request start = (result, final) ↔
          summarizer.FallsBack request start result final) ∧
      (summarizer.candidates request).Nodup ∧
      ∀ names,
        (summarizer.summarize .never request start).1 = .error (.allModelsFailed names) ↔
          summarizer.catalog.supports request.family = true ∧
            (∃ final, summarizer.Exhausts request start final) ∧
            names = (summarizer.candidates request).map Model.Id.name := by
  refine ⟨fun result final => summarize_never_iff, summarizer.nodup_candidates request, ?_⟩
  intro names
  constructor
  · intro failed
    have fallsBack := summarize_never_iff.mp (Prod.ext failed rfl :
      summarizer.summarize .never request start = (.error (.allModelsFailed names), _))
    obtain ⟨supported, exhausts, namesEq⟩ := fallsBack.exhausts
    exact ⟨supported, ⟨_, exhausts⟩, namesEq⟩
  · rintro ⟨supported, ⟨final, exhausts⟩, rfl⟩
    rw [(FallsBack.exhausted supported exhausts).summarize_eq]

end Summarizer

end Precis.Summary

import Precis.Proofs.Model.Validation
import Precis.Proofs.Summary.Answers
import Precis.Proofs.Summary.Cancellation

/-!
Contract: an accepted catalog covers the walk over its models.

Owns the place of a request in which an unsupported model can come from: with no
model pinned every candidate is described, so it is the factory or a model that
says so, and it is the last thing that happens.

Does not own how a catalog is validated.
-/

namespace Precis.Summary

namespace Summarizer

/-- A request without a pinned model brings an unsupported model only as the
answer to its newest event. -/
theorem summarize_unsupportedModel
    {summarizer : Summarizer}
    {cancellation : Cancellation}
    {request : Request}
    {session : Session}
    {name : String}
    (unpinned : request.model = none)
    (ended :
      (summarizer.summarize cancellation request session).1 =
        .error (.unsupportedModel name)) :
    ∃ event before,
      (summarizer.summarize cancellation request session).2.log = event :: before ∧
        session.log <:+ before ∧
        summarizer.surroundings.Refuses (.unsupportedModel name) event before := by
  cases supported : summarizer.catalog.supports request.family with
  | false =>
      rw [summarizer.summarize_unsupported _ _ _ supported] at ended
      have same := Except.error.inj ended
      contradiction
  | true =>
      have stops := summarizer.summarize_stops cancellation request session supported
      rw [ended] at stops
      generalize (summarizer.summarize cancellation request session).2 = final at stops
      cases stops with
      | @unmapped tried rest model reached split reaches undescribed =>
          -- The order of an accepted catalog holds described models only.
          have member : model ∈ summarizer.catalog.preference := by
            have candidates : summarizer.candidates request = summarizer.catalog.preference := by
              rw [candidates, unpinned]
            rw [← candidates, split]
            simp
          have described := summarizer.catalog.described model member
          unfold Model.Catalog.descriptor? at undescribed
          rw [undescribed] at described
          contradiction
      | @settled tried rest model descriptor reached outcome result turn attempted settles =>
          cases settles with
          | fatal fatal =>
              obtain own | ⟨event, before, logEq, grown, refuses⟩ :=
                (summarizer.attempt_answers cancellation request descriptor reached).failure _
                  attempted
              · contradiction
              · exact ⟨event, before, logEq,
                  turn.reaches.undisturbed.2.log_suffix.trans grown, refuses⟩

end Summarizer

/-- A catalog is made exactly if every model of the order is described and none
occurs twice. Otherwise the error tells the fault at the first place that has
one, and a model that is neither described nor new there counts as undescribed.
The catalog that is made holds the lists as given, and the last description of
each model counts. With it, a request that pins no model fails for an
unsupported model only if the factory or a model answers so. -/
theorem catalog_exact_and_covering
    (families : List Model.Family)
    (descriptors : List Model.Descriptor)
    (preference : List Model.Id) :
    let made := Model.Catalog.ofLists families descriptors preference
    ((∃ catalog, made = .ok catalog) ↔
      (∀ id ∈ preference, ∃ descriptor ∈ descriptors, descriptor.id = id) ∧
        preference.Nodup) ∧
    (∀ error,
      made = .error error ↔
        ∃ index fault, Model.FirstFaultAt descriptors preference index fault ∧
          error = .invalid "model priority" fault.message) ∧
    ∀ catalog, made = .ok catalog →
      catalog.families = families ∧ catalog.preference = preference ∧
      (∀ id descriptor,
        catalog.descriptor? id = some descriptor ↔
          descriptor.id = id ∧
            ∃ before after, descriptors = before ++ descriptor :: after ∧
              ∀ other ∈ after, other.id ≠ id) ∧
      ∀ summarizer : Summarizer, summarizer.catalog = catalog →
        ∀ cancellation request session name, request.model = none →
          let ended := summarizer.summarize cancellation request session
          ended.1 = .error (.unsupportedModel name) →
            ∃ event before, ended.2.log = event :: before ∧ session.log <:+ before ∧
              summarizer.surroundings.Refuses (.unsupportedModel name) event before := by
  intro made
  cases found : Model.firstFault? descriptors [] preference with
  | some fault =>
      have refused : made = .error (.invalid "model priority" fault.message) :=
        Model.Catalog.ofLists_of_fault found
      have faulty : ¬ ((∀ id ∈ preference, ∃ descriptor ∈ descriptors, descriptor.id = id) ∧
          preference.Nodup) := by
        rw [← Model.firstFault?_eq_none_iff, found]
        exact Option.some_ne_none fault
      obtain ⟨index, first⟩ := Model.firstFault?_eq_some_iff.mp found
      rw [refused]
      refine ⟨⟨nofun, fun faultless => absurd faultless faulty⟩, fun error => ?_, nofun⟩
      rw [Except.error.injEq]
      constructor
      · rintro rfl
        exact ⟨index, fault, first, rfl⟩
      · rintro ⟨_, _, again, rfl⟩
        rw [first.unique again]
  | none =>
      have faultless := Model.firstFault?_eq_none_iff.mp found
      have accepted : made = .ok _ := Model.Catalog.ofLists_of_faultless found
      rw [accepted]
      refine ⟨⟨fun _ => faultless, fun _ => ⟨_, rfl⟩⟩, fun error => ⟨nofun, ?_⟩, ?_⟩
      · rintro ⟨index, fault, first, -⟩
        exact absurd first.found (Model.faultless_iff.mpr faultless index fault)
      · rintro _ ⟨rfl⟩
        refine ⟨rfl, rfl, fun id descriptor => Model.describe?_eq_some_iff, ?_⟩
        intro summarizer _ cancellation request session name unpinned ended failed
        exact Summarizer.summarize_unsupportedModel unpinned failed

end Precis.Summary

import Precis.Proofs.Summary.Cancellation

/-!
Contract: how a request begins and ends that is never cancelled.

Owns that the first thing that a request does, if it does anything, is to count
its whole input for the first of its candidates; and that a summary is the text
of the reply to the last call that the request made, which went to the model
that the summary names.

Does not own what is sent for a call.
-/

namespace Precis.Summary

namespace Summarizer

variable {summarizer : Summarizer} {request : Request} {descriptor : Model.Descriptor}
  {session : Session}

/-! ### The beginning -/

/-- Looking for an input that fits begins with a count of the whole input. -/
theorem fit_opens
    (summarizer : Summarizer)
    (model : String)
    (limit : UInt64)
    (input : String)
    (session : Session) :
    ∃ call : Call UInt64, call.model = model ∧ call.input = input ∧
      .count call :: session.log <:+
        (summarizer.fit .never model limit input session).2.log := by
  let call := answeredCall session summarizer.surroundings.count model input
  refine ⟨call, rfl, rfl, ?_⟩
  rw [fit_eq, count, call_never_eq]
  cases (summarizer.surroundings.count session.log session.now model input).result with
  | error cause => exact List.suffix_refl _
  | ok tokens =>
      have further := summarizer.fit_beside .never model limit (shrink input)
        (session.elapse (.count call) call.ended)
      unfold afterCount
      simp only
      split
      · exact List.suffix_refl _
      · split
        · exact List.suffix_refl _
        · exact further.leads.log_suffix

/-- An attempt makes the handle first, and then counts the whole input. -/
theorem attempt_opens
    (request : Request)
    (descriptor : Model.Descriptor)
    {credential : String}
    (keyed : summarizer.credential? = some credential)
    (unconnected : session.connected = false)
    (willing : summarizer.surroundings.create session.log credential = .ok ()) :
    ∃ call : Call UInt64, call.model = descriptor.providerName ∧ call.input = request.input ∧
      .count call :: .create credential (.ok ()) :: session.log <:+
        (summarizer.attempt .never request descriptor session).2.log := by
  have connects : summarizer.connect credential session =
      (.ok (), { session.note (.create credential (.ok ())) with connected := true }) := by
    rw [connect, if_neg (by simp [unconnected]), willing]
  obtain ⟨call, isModel, isInput, opens⟩ := summarizer.fit_opens descriptor.providerName
    (summarizer.limitFor request descriptor) request.input
    { session.note (.create credential (.ok ())) with connected := true }
  refine ⟨call, isModel, isInput, opens.trans ?_⟩
  unfold attempt limitFor
  rw [keyed]
  simp only [connects]
  generalize summarizer.fit .never descriptor.providerName _ request.input _ = fitted
  obtain ⟨ended, after⟩ := fitted
  cases ended with
  | cancelled => exact List.suffix_refl _
  | finished result =>
      cases result with
      | error cause => exact List.suffix_refl _
      | ok found =>
          obtain ⟨input, tokens⟩ := found
          exact (summarizer.generate_beside .never descriptor.providerName input tokens
            after).leads.log_suffix

/-- What the first event of a request is. -/
structure Opens
    (summarizer : Summarizer)
    (request : Request)
    (model : Model.Id)
    (descriptor : Model.Descriptor)
    (credential : String)
    (call : Call UInt64)
    (log : Log) : Prop where
  model_eq : (summarizer.candidates request).head? = some model
  described : summarizer.catalog.descriptor? model = some descriptor
  keyed : summarizer.credential? = some credential
  called : call.model = descriptor.providerName
  whole : call.input = request.input
  place : [.count call, .create credential (.ok ())] <:+ log

/-- The first request of a summarizer does nothing, or opens with a count of its
whole input for the first candidate. -/
theorem summarize_opens
    (request : Request)
    (unconnected : session.connected = false)
    (fresh : session.log = [])
    (willing : ∀ credential, summarizer.surroundings.create [] credential = .ok ()) :
    (summarizer.summarize .never request session).2.log = [] ∨
      ∃ model descriptor credential call,
        summarizer.Opens request model descriptor credential call
          (summarizer.summarize .never request session).2.log := by
  cases supported : summarizer.catalog.supports request.family with
  | false =>
      rw [summarizer.summarize_unsupported _ _ _ supported]
      exact .inl fresh
  | true =>
      rw [summarizer.summarize_supported _ _ _ supported]
      cases candidates : summarizer.candidates request with
      | nil => exact .inl fresh
      | cons model rest =>
          cases described : summarizer.catalog.descriptor? model with
          | none =>
              rw [walk, described]
              exact .inl fresh
          | some descriptor =>
              cases keyed : summarizer.credential? with
              | none =>
                  have refused : summarizer.attempt .never request descriptor session =
                      (.finished (.error (.missingCredential request.family.name)), session) := by
                    rw [attempt, keyed]
                  have attempted := congrArg Prod.fst refused
                  rw [walk_of_settles described rfl attempted (.fatal rfl), refused]
                  exact .inl fresh
              | some credential =>
                  rw [← fresh] at willing
                  obtain ⟨call, called, whole, opens⟩ :=
                    attempt_opens request descriptor keyed unconnected (willing credential)
                  have further : summarizer.Leads
                      (summarizer.attempt .never request descriptor session).2
                      (summarizer.walk .never request (model :: rest) (model :: rest) session).2 :=
                    walk_leads_of_attempt described
                  rw [fresh] at opens
                  refine .inr ⟨model, descriptor, credential, call, ?_, described, keyed,
                    called, whole, opens.trans further.log_suffix⟩
                  rw [candidates]
                  rfl

/-! ### The end -/

/-- The call that a summary comes from. -/
structure BroughtBy
    (summarizer : Summarizer)
    (summary : Digest)
    (descriptor : Model.Descriptor)
    (call : Call Reply)
    (reply : Reply)
    (before log : Log) : Prop where
  described : summarizer.catalog.descriptor? summary.model = some descriptor
  called : call.model = descriptor.providerName
  answered :
    (summarizer.surroundings.generate before call.started call.model call.input).result = .ok reply
  text_eq : reply.firstText = .ok summary.text
  last : ∃ now cost, log = .record now cost :: .generate call :: before

theorem attempt_brings
    {text : String}
    (attempted :
      (summarizer.attempt .never request descriptor session).1 = .finished (.ok text)) :
    ∃ call reply before,
      call.model = descriptor.providerName ∧
        (summarizer.surroundings.generate before call.started call.model call.input).result =
          .ok reply ∧
        reply.firstText = .ok text ∧
        ∃ now cost, (summarizer.attempt .never request descriptor session).2.log =
          .record now cost :: .generate call :: before := by
  have attempts := summarizer.attempt_attempts .never request descriptor session
  rw [attempted] at attempts
  cases attempts with
  | stopped textless course => exact absurd rfl (textless text)
  | generated course log_eq measures generates =>
      generalize (summarizer.attempt .never request descriptor session).2 = after at generates ⊢
      cases generates with
      | @recorded call reply _ verdict placed model_eq input_eq answered found =>
          have given := (placed.answered _ answered).1
          rw [← placed.started_eq] at given
          exact ⟨call, reply, _, model_eq, given.symm, found, _, _, rfl⟩

theorem FallsBack.brings
    {summary : Digest}
    {final : Session}
    (fallsBack : summarizer.FallsBack request session (.ok summary) final) :
    ∃ descriptor call reply before,
      summarizer.BroughtBy summary descriptor call reply before final.log := by
  cases fallsBack with
  | settled supported split reaches described attempted settles =>
      cases settles with
      | summary notEmpty =>
          obtain ⟨call, reply, before, called, answered, found, last⟩ := attempt_brings attempted
          exact ⟨_, call, reply, before, described, called, answered, found, last⟩

end Summarizer

end Precis.Summary

import Precis.Proofs.Gemini.Endpoint
import Precis.Proofs.Summary.FailedRequest
import Precis.Proofs.Summary.Opening

/-!
Contract: what a summarizer over the Gemini interface sends.

Owns that the first thing that a request sends, if it sends anything, is a
count of its whole input for the first of its candidates; and that a summary is
the text of the reply to the last thing sent, which went to the model that the
summary names.

Does not own what is sent in between.
-/

namespace Precis.Gemini

open Summary
open Http (AnswersWithin)

/-! ### What is sent for an event -/

theorem countAction_mem : countAction ∈ actions := by decide

theorem generateAction_mem : generateAction ∈ actions := by decide

/-- The model that an event called. -/
def calledModel? : Event → Option String
  | .count call => some call.model
  | .generate call => some call.model
  | _ => none

theorem sentBy?_eq_some_iff
    [Url.DomainCoding]
    {α : Type}
    {backend : Backend}
    {action : String}
    {call : Call α}
    {sent : Http.Sent} :
    backend.sentBy? action call = some sent ↔
      ∃ request, backend.request action call.model call.input = .ok request ∧
        sent = { moment := call.started, request } := by
  unfold Backend.sentBy?
  cases backend.request action call.model call.input with
  | error cause => simp
  | ok request => simp [eq_comm]

theorem exists_request_of_sent?
    [Url.DomainCoding]
    {backend : Backend}
    {event : Event}
    {sent : Http.Sent}
    (sends : backend.sent? event = some sent) :
    ∃ action ∈ actions, ∃ model input request,
      calledModel? event = some model ∧ backend.request action model input = .ok request := by
  cases event with
  | count call =>
      rw [Backend.sent?] at sends
      obtain ⟨request, made, -⟩ := sentBy?_eq_some_iff.mp sends
      exact ⟨countAction, countAction_mem, call.model, call.input, request, rfl, made⟩
  | generate call =>
      rw [Backend.sent?] at sends
      obtain ⟨request, made, -⟩ := sentBy?_eq_some_iff.mp sends
      exact ⟨generateAction, generateAction_mem, call.model, call.input, request, rfl, made⟩
  | _ => cases sends

section Session

variable [Url.DomainCoding] (settings : Settings.SummarizerSettings) (server : Http.Server)
  (clock : Summary.Log → Instant) (request : Summary.Request)

/-- The log of the first request that the summarizer of the settings works on. -/
def firstLog : Summary.Log :=
  ((settings.summarizer server clock).summarize .never request settings.session).2.log

/-- Every call goes to a model of the catalog. -/
theorem calledModel?_mem
    {event : Event}
    {model : String}
    (member : event ∈ firstLog settings server clock request)
    (calls : calledModel? event = some model) :
    model ∈ providerNames := by
  obtain ⟨before, place⟩ := Log.exists_suffix_of_mem member
  have course := (settings.summarizer server clock).run_course settings.session
    [{ request, cancellation := .never }]
  have kept := course.rule_of_suffix place List.nil_suffix
  cases kept with
  | attempt split turn begun within kept =>
      have known := providerName_mem turn.described
      cases kept with
      | prepare kept =>
          cases kept with
          | create credential answer => cases calls
          | count call _ model_eq begins =>
              rw [← Option.some.inj calls, model_eq]
              exact known
      | check now verdict older measures => cases calls
      | generate now older model_eq measures =>
          rw [← Option.some.inj calls, model_eq]
          exact known
      | record now now' older brings => cases calls
  | pause started ended before => cases calls

/-- If anything is sent, every request of the interface can be made. -/
theorem exists_request_of_sent
    (sentAny : settings.backend.sent (firstLog settings server clock request) ≠ [])
    {action model : String}
    (knownAction : action ∈ actions)
    (knownModel : model ∈ providerNames)
    (input : String) :
    ∃ made, settings.backend.request action model input = .ok made := by
  obtain ⟨sent, isSent⟩ := List.exists_mem_of_ne_nil _ sentAny
  obtain ⟨event, member, sends⟩ := List.mem_filterMap.mp isSent
  obtain ⟨sentAction, knownSent, sentModel, _, _, calls, made⟩ := exists_request_of_sent? sends
  have knownSentModel := calledModel?_mem settings server clock request member calls
  exact Backend.exists_request made knownSent knownSentModel knownAction knownModel input

/-! ### The first and the last request -/

/-- What is sent for the first request, oldest first. -/
def firstSent : List Http.Sent :=
  (settings.backend.sent (firstLog settings server clock request)).reverse

/-- The model that a request is tried with first: the one that it names, or the
first of the order of preference. -/
def firstModel? : Option Model.Id :=
  request.model.or Model.Catalog.gemini.preference.head?

/-- A request that counts the whole input for the model that is tried first. -/
def CountsWhole (sent : Http.Request) : Prop :=
  ∃ model descriptor, firstModel? request = some model ∧
    Model.Catalog.gemini.descriptor? model = some descriptor ∧
    settings.backend.Asks countAction descriptor.providerName request.input sent

/-- A credential of the settings that the interface is used with. -/
def Keyed (key : String) : Prop :=
  settings.credential = some key ∧ settings.backend.credential = key

theorem head?_candidates :
    ((settings.summarizer server clock).candidates request).head? = firstModel? request := by
  unfold Summarizer.candidates firstModel?
  cases request.model with
  | none => rfl
  | some model => rfl

theorem keyed_of_credential?
    {key : String}
    (keyed : (settings.summarizer server clock).credential? = some key) :
    Keyed settings key := by
  obtain ⟨isKey, -⟩ := Option.filter_eq_some_iff.mp keyed
  refine ⟨isKey, ?_⟩
  show settings.credential.getD "" = key
  rw [show settings.credential = some key from isKey]
  rfl

theorem firstLog_opens :
    firstLog settings server clock request = [] ∨
      ∃ model descriptor key call,
        (settings.summarizer server clock).Opens request model descriptor key call
          (firstLog settings server clock request) :=
  Summarizer.summarize_opens request rfl rfl fun _ => rfl

theorem firstSent_opens :
    firstSent settings server clock request = [] ∨
      ∃ key first rest, Keyed settings key ∧
        firstSent settings server clock request = first :: rest ∧
        CountsWhole settings request first.request := by
  by_cases nothing : settings.backend.sent (firstLog settings server clock request) = []
  · rw [firstSent, nothing]
    exact .inl rfl
  · refine .inr ?_
    rcases firstLog_opens settings server clock request with
      empty | ⟨model, descriptor, key, call, opens⟩
    · rw [empty] at nothing
      exact absurd rfl nothing
    · have known := providerName_mem opens.described
      obtain ⟨made, isMade⟩ := exists_request_of_sent settings server clock request nothing
        countAction_mem known request.input
      have sends : settings.backend.sent? (.count call) = some ⟨call.started, made⟩ := by
        rw [Backend.sent?, sentBy?_eq_some_iff]
        rw [← opens.called, ← opens.whole] at isMade
        exact ⟨made, isMade, rfl⟩
      have silent : settings.backend.sent? (.create key (.ok ())) = none := rfl
      obtain ⟨later, isLog⟩ := opens.place
      refine ⟨key, ⟨call.started, made⟩, (later.filterMap settings.backend.sent?).reverse,
        keyed_of_credential? settings server clock opens.keyed, ?_, model, descriptor, ?_,
        opens.described, Backend.asks_of_request isMade⟩
      · rw [firstSent, Backend.sent, ← isLog, List.filterMap_append, List.reverse_append]
        simp only [List.filterMap_cons, sends, silent, List.filterMap_nil]
        rfl
      · rw [← opens.model_eq, head?_candidates]

/-- The last thing sent brings a summary: it asks the model that the summary
names, and the server answers it, after what was sent before, with a reply that
has the text of the summary. -/
def Brings (summary : Summary.Digest) (earlier : List Http.Sent) (last : Http.Request) : Prop :=
  ∃ descriptor input response reply,
    Model.Catalog.gemini.descriptor? summary.model = some descriptor ∧
    settings.backend.Asks generateAction descriptor.providerName input last ∧
    AnswersWithin timeLimit (server (earlier.map Http.Sent.request).reverse) last response ∧
    readResponse decodeReply response = .ok reply ∧ reply.firstText = .ok summary.text

theorem firstSent_ends
    {summary : Summary.Digest}
    (summarized : ((settings.summarizer server clock).summarize .never request
      settings.session).1 = .ok summary) :
    ∃ earlier last, firstSent settings server clock request = earlier ++ [last] ∧
      Brings settings server summary earlier last.request := by
  have fallsBack := Summarizer.summarize_never_iff.mp (Prod.ext summarized rfl :
    (settings.summarizer server clock).summarize .never request settings.session =
      (.ok summary, _))
  obtain ⟨descriptor, call, reply, before, brought⟩ := fallsBack.brings
  obtain ⟨now, cost, isLog⟩ := brought.last
  have answered : (settings.backend.call (server (settings.backend.requests before))
      generateAction decodeReply call.model call.input).result = .ok reply :=
    brought.answered
  obtain ⟨made, response, isMade, answers, read⟩ := Backend.call_result_eq_ok_iff.mp answered
  have sends : settings.backend.sent? (.generate call) = some ⟨call.started, made⟩ := by
    rw [Backend.sent?, sentBy?_eq_some_iff]
    exact ⟨made, isMade, rfl⟩
  have silent : settings.backend.sent? (.record now cost) = none := rfl
  refine ⟨(settings.backend.sent before).reverse, ⟨call.started, made⟩, ?_, descriptor,
    call.input, response, reply, brought.described, ?_, ?_, read, brought.text_eq⟩
  · have isFirstLog : firstLog settings server clock request =
        .record now cost :: .generate call :: before := isLog
    rw [firstSent, isFirstLog, Backend.sent]
    simp only [List.filterMap_cons, sends, silent, List.reverse_cons]
    rfl
  · rw [← brought.called]
    exact Backend.asks_of_request isMade
  · rw [List.map_reverse, List.reverse_reverse]
    exact answers

end Session

end Precis.Gemini

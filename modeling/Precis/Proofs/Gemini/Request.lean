import Mathlib.Data.List.DropRight
import Precis.Http.Message
import Precis.Proofs.Gemini.Endpoint
import Precis.Proofs.Json.Writing
import Precis.Proofs.Summary.Concealment

/-!
Contract: what a request to the Gemini interface carries.

Owns that the body of a request, for whichever action, is read back as one
content of the user with one part, the text of which is the input; that slashes
at the end of the base address make no difference; and that runs with different
keys send requests that differ in the header of the key only.

Does not own which requests are sent.
-/

namespace Precis.Gemini

open Summary (Log Event Session Blind Same Summarizer)
open Http (AnswersWithin)

/-! ### Bodies -/

/-- The document of a request: one content of the user, with one part. -/
def inputDocument (input : String) : Json.Document :=
  let part := Json.Document.object [(some "text", .string (some input))]
  let content := Json.Document.object
    [(some "role", .string (some "user")), (some "parts", .array [part])]
  .object [(some "contents", .array [content])]

theorem requestBody_exact (input : String) : (requestBody input).Exact := by
  simp [requestBody, Json.Value.Exact, Json.MembersExact, Json.ItemsExact]

theorem toDocument_requestBody (input : String) :
    (requestBody input).toDocument = inputDocument input := by
  simp only [requestBody, inputDocument, Json.Value.toDocument, Json.membersToDocuments,
    Json.itemsToDocuments]

theorem spells_requestBody (input : String) :
    Json.SpellsPadded (inputDocument input) (requestBody input).text.toList := by
  rw [← toDocument_requestBody]
  exact Json.Value.spellsPadded_text (requestBody_exact input)

/-! ### Slashes at the end of an address -/

theorem withoutFinalSlashes_eq (text : String) :
    withoutFinalSlashes text = String.ofList (text.toList.rdropWhile (· == '/')) :=
  rfl

/-- The address with some slashes added. -/
def withSlashes (address : String) (count : Nat) : String :=
  address ++ String.ofList (List.replicate count '/')

theorem withoutFinalSlashes_withSlashes (address : String) (count : Nat) :
    withoutFinalSlashes (withSlashes address count) = withoutFinalSlashes address := by
  rw [withoutFinalSlashes_eq, withoutFinalSlashes_eq, withSlashes, String.toList_append,
    String.toList_ofList]
  induction count with
  | zero => rw [List.replicate_zero, List.append_nil]
  | succ count inductionHypothesis =>
      rw [List.replicate_succ', ← List.append_assoc, List.rdropWhile_concat_pos _ _ _ rfl]
      exact inductionHypothesis

theorem getLast?_withoutFinalSlashes_ne (address : String) :
    (withoutFinalSlashes address).toList.getLast? ≠ some '/' := by
  rw [withoutFinalSlashes_eq, String.toList_ofList]
  intro last
  obtain ⟨notEmpty, isLast⟩ := List.mem_getLast?_eq_getLast last
  have notSlash := List.rdropWhile_last_not (· == '/') address.toList notEmpty
  exact notSlash (by rw [← isLast]; rfl)

/-- Nothing but slashes is missing from what is left of an address. -/
theorem exists_eq_withSlashes (address : String) :
    ∃ count, address = withSlashes (withoutFinalSlashes address) count := by
  let slashes := (address.toList.reverse.takeWhile (· == '/')).reverse
  have allSlashes : ∀ character ∈ slashes, character = '/' := by
    intro character member
    have found := List.mem_takeWhile_imp (List.mem_reverse.mp member)
    exact eq_of_beq found
  refine ⟨slashes.length, ?_⟩
  rw [withSlashes, ← List.eq_replicate_of_mem allSlashes, withoutFinalSlashes,
    ← String.ofList_append, ← List.reverse_append, List.takeWhile_append_dropWhile,
    List.reverse_reverse, String.ofList_toList]

/-- What a request carries: it asks for an action of a model under the base
address, with the key and the input, and nothing else. -/
structure Carries
    [Url.DomainCoding]
    (backend : Backend)
    (action model input : String)
    (request : Http.Request) : Prop where
  method : request.method = .post
  address :
    ∃ stem count, stem.toList.getLast? ≠ some '/' ∧ backend.baseUrl = withSlashes stem count ∧
      Url.parse (stem ++ "/models/" ++ model ++ ":" ++ action) = .ok request.url
  headers : request.headers = [("x-goog-api-key", backend.credential), Http.jsonHeader]
  text :
    ∃ body, request.body = some body ∧
      Json.Document.ofText? body.text = some (inputDocument input) ∧
      Json.Document.ofBytes? (Http.textBytes body.text) = some (inputDocument input)

namespace Backend

theorem carries_of_request
    [Url.DomainCoding]
    {backend : Backend}
    {action model input : String}
    {request : Http.Request}
    (made : backend.request action model input = .ok request) :
    Carries backend action model input request := by
  have asks := asks_of_request made
  obtain ⟨count, isBase⟩ := exists_eq_withSlashes backend.baseUrl
  exact {
    method := asks.method
    address := ⟨_, count, getLast?_withoutFinalSlashes_ne _, isBase, asks.url⟩
    headers := asks.headers
    text := ⟨_, asks.body, Json.ofText?_of_spells (spells_requestBody input),
      Json.ofBytes?_of_spells (spells_requestBody input)⟩ }

/-- Whatever is asked, a backend asks it at the address that is left without the
slashes at the end of its base address. -/
theorem request_eq_of_slashes
    [Url.DomainCoding]
    {baseUrl otherBaseUrl : String}
    (sameBase : withoutFinalSlashes baseUrl = withoutFinalSlashes otherBaseUrl)
    (credential : String) :
    request { baseUrl, credential } = request { baseUrl := otherBaseUrl, credential } := by
  funext action model input
  unfold request endpoint
  rw [sameBase]

/-! ### Concealed keys -/

/-- A request without the key that it shows. -/
def conceal (request : Http.Request) : Http.Request :=
  { request with
    headers := request.headers.map fun header =>
      if header.1 = "x-goog-api-key" then (header.1, "") else header }

theorem url_eq_of_conceal_eq
    {request other : Http.Request}
    (same : conceal request = conceal other) :
    request.url = other.url := by
  have sameUrl := congrArg Http.Request.url same
  exact sameUrl

/-- What was sent, without the key that it shows. -/
def concealSent (sent : Http.Sent) : Http.Sent :=
  { sent with request := conceal sent.request }

theorem sent?_concealed [Url.DomainCoding] (backend : Backend) (event : Event) :
    backend.sent? event.concealed = backend.sent? event := by
  cases event with
  | _ => rfl

theorem sent_concealed [Url.DomainCoding] (backend : Backend) (log : Log) :
    backend.sent log.concealed = backend.sent log := by
  unfold sent Log.concealed
  rw [List.filterMap_map]
  exact List.filterMap_congr fun event _ => backend.sent?_concealed event

/-- Servers that answer the same as long as only keys differ. -/
def AnswerAlike (one two : Http.Server) : Prop :=
  ∀ ⦃earlier otherEarlier : List Http.Request⦄ ⦃request other : Http.Request⦄,
    earlier.map conceal = otherEarlier.map conceal → conceal request = conceal other →
      one earlier request = two otherEarlier other

/-- Backends that differ in their keys only, and can send either of them. -/
structure Rekeyed (one two : Backend) : Prop where
  baseUrl : one.baseUrl = two.baseUrl
  sendable : Http.isHeaderValue one.credential = true
  otherSendable : Http.isHeaderValue two.credential = true

section Rekeyed

variable [Url.DomainCoding] {one two : Backend} (rekeyed : one.Rekeyed two)

include rekeyed

/-- A request can be made with both keys, and differs in the key, or with neither. -/
theorem Rekeyed.request_cases (action model input : String) :
    (∃ request other, one.request action model input = .ok request ∧
        two.request action model input = .ok other ∧ conceal request = conceal other) ∨
      ∃ cause, one.request action model input = .error cause ∧
        two.request action model input = .error cause := by
  have sameEndpoint : one.endpoint model action = two.endpoint model action := by
    unfold endpoint
    rw [rekeyed.baseUrl]
  have contentType : Http.isHeaderValue Http.jsonHeader.2 = true := by decide
  unfold request
  rw [sameEndpoint]
  cases Url.parse (two.endpoint model action) with
  | error cause => exact .inr ⟨.notMade none, rfl, rfl⟩
  | ok url =>
      unfold Http.Request.make
      simp only [List.all_cons, List.all_nil, rekeyed.sendable, rekeyed.otherSendable,
        contentType, Bool.and_true, Bool.not_true, Bool.false_eq_true, if_false]
      by_cases host : url.hasHost = true
      · by_cases silent : url.scheme ≠ "http" ∧ url.scheme ≠ "https"
        · exact .inr ⟨.notMade (some url), by simp [host, silent], by simp [host, silent]⟩
        · refine .inl ⟨_, _, by rw [host, Bool.not_true, if_neg (by decide), if_neg silent],
            by rw [host, Bool.not_true, if_neg (by decide), if_neg silent], ?_⟩
          rfl
      · exact .inr ⟨.notMade (some url), by simp [host], by simp [host]⟩

theorem Rekeyed.call_eq
    {α : Type}
    {serve otherServe : Http.Request → Option Http.Handling}
    (answers : ∀ ⦃request other⦄, conceal request = conceal other →
      serve request = otherServe other)
    (action : String)
    (decode : Json.Decoder α)
    (model input : String) :
    one.call serve action decode model input = two.call otherServe action decode model input := by
  unfold call
  rcases rekeyed.request_cases action model input with
    ⟨request, other, made, otherMade, same⟩ | ⟨cause, unmade, otherUnmade⟩
  · have sameUrl : request.url = other.url := url_eq_of_conceal_eq same
    rw [made, otherMade]
    simp only [answers same, readHandling, sameUrl]
  · rw [unmade, otherUnmade]

theorem Rekeyed.sent?_eq (event : Event) :
    (one.sent? event).map concealSent = (two.sent? event).map concealSent := by
  have sentBy {α : Type} (action : String) (call : Summary.Call α) :
      (one.sentBy? action call).map concealSent = (two.sentBy? action call).map concealSent := by
    unfold sentBy?
    rcases rekeyed.request_cases action call.model call.input with
      ⟨request, other, made, otherMade, same⟩ | ⟨cause, unmade, otherUnmade⟩
    · rw [made, otherMade]
      simp only [Option.map_some, concealSent, same]
    · rw [unmade, otherUnmade]
  cases event with
  | count call =>
      rw [sent?, sent?]
      exact sentBy countAction call
  | generate call =>
      rw [sent?, sent?]
      exact sentBy generateAction call
  | _ => rfl

theorem Rekeyed.sent_eq {log other : Log} (same : log.concealed = other.concealed) :
    (one.sent log).map concealSent = (two.sent other).map concealSent := by
  rw [← sent_concealed one, ← sent_concealed two, same]
  unfold sent
  rw [List.map_filterMap, List.map_filterMap]
  exact List.filterMap_congr fun event _ => rekeyed.sent?_eq event

theorem Rekeyed.requests_eq {log other : Log} (same : log.concealed = other.concealed) :
    (one.requests log).map conceal = (two.requests other).map conceal := by
  have sent := congrArg (List.map Http.Sent.request) (rekeyed.sent_eq same)
  rw [List.map_map, List.map_map] at sent
  unfold requests
  rw [List.map_map, List.map_map]
  exact sent

theorem Rekeyed.answers_eq
    {server otherServer : Http.Server}
    (alike : AnswerAlike server otherServer)
    {log other : Log}
    (same : log.concealed = other.concealed)
    ⦃request otherRequest : Http.Request⦄
    (sameRequest : conceal request = conceal otherRequest) :
    server (one.requests log) request = otherServer (two.requests other) otherRequest :=
  alike (rekeyed.requests_eq same) sameRequest

theorem Rekeyed.count_eq
    {server otherServer : Http.Server}
    (alike : AnswerAlike server otherServer)
    {log other : Log}
    (same : log.concealed = other.concealed)
    (clock : Log → Instant) :
    (one.surroundings server clock).count log =
      (two.surroundings otherServer clock).count other := by
  funext moment model input
  simp only [surroundings, Backend.count]
  exact rekeyed.call_eq (rekeyed.answers_eq alike same) countAction decodeCount model input

theorem Rekeyed.generate_eq
    {server otherServer : Http.Server}
    (alike : AnswerAlike server otherServer)
    {log other : Log}
    (same : log.concealed = other.concealed)
    (clock : Log → Instant) :
    (one.surroundings server clock).generate log =
      (two.surroundings otherServer clock).generate other := by
  funext moment model input
  simp only [surroundings, Backend.generate]
  exact rekeyed.call_eq (rekeyed.answers_eq alike same) generateAction decodeReply model input

end Rekeyed

end Backend

/-! ### Runs with two keys -/

/-- A text that can be sent as a key. -/
structure IsKey (key : String) : Prop where
  notEmpty : key ≠ ""
  sendable : Http.isHeaderValue key = true

/-- Settings with the given key. -/
def withKey (settings : Settings.SummarizerSettings) (key : String) :
    Settings.SummarizerSettings :=
  { settings with credential := some key }

/-- The summarizer of settings with a key, after requests that were carried out
one after another. -/
def runWith
    [Url.DomainCoding]
    (settings : Settings.SummarizerSettings)
    (key : String)
    (server : Http.Server)
    (clock : Log → Instant)
    (uses : List Summarizer.Use) : Session :=
  ((withKey settings key).summarizer server clock).run settings.session uses

/-- What was sent by then, newest first. -/
def sentWith
    [Url.DomainCoding]
    (settings : Settings.SummarizerSettings)
    (key : String)
    (server : Http.Server)
    (clock : Log → Instant)
    (uses : List Summarizer.Use) : List Http.Sent :=
  (withKey settings key).backend.sent (runWith settings key server clock uses).log

section Keys

variable (settings : Settings.SummarizerSettings) {key otherKey : String}
  {server otherServer : Http.Server} {clock : Log → Instant}
  (isKey : IsKey key) (isOtherKey : IsKey otherKey)

include isKey isOtherKey

theorem rekeyed_withKey :
    (withKey settings key).backend.Rekeyed (withKey settings otherKey).backend where
  baseUrl := rfl
  sendable := isKey.sendable
  otherSendable := isOtherKey.sendable

variable [Url.DomainCoding] (alike : Backend.AnswerAlike server otherServer) (blind : Blind clock)

include alike blind

theorem summarizer_resembles :
    ((withKey settings key).summarizer server clock).Resembles
      ((withKey settings otherKey).summarizer otherServer clock) where
  keyed := by
    have credential?_eq (key : String) (isKey : IsKey key) (server : Http.Server) :
        ((withKey settings key).summarizer server clock).credential? = some key :=
      Option.filter_eq_some_iff.mpr ⟨rfl, bne_iff_ne.mpr isKey.notEmpty⟩
    rw [credential?_eq key isKey, credential?_eq otherKey isOtherKey]
    rfl
  defaultCeiling := rfl
  backoff := rfl
  catalog := rfl
  create _ _ _ _ _ := rfl
  count _ _ same := (rekeyed_withKey settings isKey isOtherKey).count_eq alike same clock
  generate _ _ same := (rekeyed_withKey settings isKey isOtherKey).generate_eq alike same clock
  clock := blind

variable {uses : List Summarizer.Use} (blindUses : ∀ use ∈ uses, Blind use.cancellation)

include blindUses

theorem runWith_resembles :
    (runWith settings key server clock uses).Resembles
      (runWith settings otherKey otherServer clock uses) :=
  Summarizer.run_resembles (summarizer_resembles settings isKey isOtherKey alike blind)
    ⟨rfl, rfl, rfl, rfl⟩ blindUses

theorem sentWith_eq :
    (sentWith settings key server clock uses).map Backend.concealSent =
      (sentWith settings otherKey otherServer clock uses).map Backend.concealSent :=
  (rekeyed_withKey settings isKey isOtherKey).sent_eq
    (runWith_resembles settings isKey isOtherKey alike blind blindUses).log

end Keys

/-- Two runs with different keys: they send the same but for the header of the
key, keep the same ledger, take the same time, and answer the same to whatever
they are asked next. -/
structure RunsAlike
    [Url.DomainCoding]
    (settings : Settings.SummarizerSettings)
    (key otherKey : String)
    (server otherServer : Http.Server)
    (clock : Log → Instant)
    (uses : List Summarizer.Use) : Prop where
  sent :
    (sentWith settings key server clock uses).map Backend.concealSent =
      (sentWith settings otherKey otherServer clock uses).map Backend.concealSent
  ledger :
    (runWith settings key server clock uses).ledger =
      (runWith settings otherKey otherServer clock uses).ledger
  now :
    (runWith settings key server clock uses).now =
      (runWith settings otherKey otherServer clock uses).now
  answers :
    ∀ use : Summarizer.Use, Blind use.cancellation →
      (((withKey settings key).summarizer server clock).summarize use.cancellation use.request
          (runWith settings key server clock uses)).1 =
        (((withKey settings otherKey).summarizer otherServer clock).summarize use.cancellation
          use.request (runWith settings otherKey otherServer clock uses)).1

/-- A request carries its input, in the same body for both actions, wherever
the slashes at the end of the base address stop; and runs with different keys
differ in the header of the key only, where the server, the clock and the
cancellations do not look at it. -/
theorem requests_carry_input [Url.DomainCoding] :
    (∀ (backend : Backend) (action model input : String) (request : Http.Request),
      backend.request action model input = .ok request →
        Carries backend action model input request) ∧
    (∀ (backend : Backend) (model input : String) (counting generating : Http.Request),
      backend.request countAction model input = .ok counting →
        backend.request generateAction model input = .ok generating →
          counting.body = generating.body) ∧
    (∀ (credential address : String) (count otherCount : Nat),
      Backend.request { baseUrl := withSlashes address count, credential } =
        Backend.request { baseUrl := withSlashes address otherCount, credential }) ∧
    (∀ (settings : Settings.SummarizerSettings) (key otherKey : String)
      (server otherServer : Http.Server) (clock : Log → Instant) (uses : List Summarizer.Use),
      IsKey key → IsKey otherKey → Backend.AnswerAlike server otherServer → Blind clock →
        (∀ use ∈ uses, Blind use.cancellation) →
          RunsAlike settings key otherKey server otherServer clock uses) := by
  refine ⟨?carries, ?sameBody, ?slashes, ?keys⟩
  case carries =>
    intro backend action model input request made
    exact Backend.carries_of_request made
  case sameBody =>
    intro backend model input counting generating made otherMade
    rw [(Backend.asks_of_request made).body, (Backend.asks_of_request otherMade).body]
  case slashes =>
    intro credential address count otherCount
    apply Backend.request_eq_of_slashes
    rw [withoutFinalSlashes_withSlashes, withoutFinalSlashes_withSlashes]
  case keys =>
    intro settings key otherKey server otherServer clock uses isKey isOtherKey alike blind
      blindUses
    have resembles := runWith_resembles settings isKey isOtherKey alike blind blindUses
    exact {
      sent := sentWith_eq settings isKey isOtherKey alike blind blindUses
      ledger := resembles.ledger
      now := resembles.now
      answers := fun use blindUse =>
        (Summarizer.summarize_same (summarizer_resembles settings isKey isOtherKey alike blind)
          resembles blindUse use.request).result }

/-- A base address with two slashes too many, an input with a quote, a backslash
and a line break, and two keys before a server that never answers. -/
theorem requests_carry_input_with_quotes :
    (∃ request,
      Backend.request ⟨"http://127.0.0.1:8080/v1//", "key"⟩ countAction "gemini-2.5-flash"
          "a \"b\" \\ c\n" = .ok request ∧
        Carries ⟨"http://127.0.0.1:8080/v1//", "key"⟩ countAction "gemini-2.5-flash"
          "a \"b\" \\ c\n" request) ∧
      RunsAlike .standard "key" "other key" (fun _ _ => none) (fun _ _ => none)
        (fun _ => Instant.latest) [⟨.mk .gemini "p" "t" none none, .never⟩] := by
  have isKey : ∀ key ∈ ["key", "other key"], IsKey key := by
    intro key member
    rw [List.mem_cons, List.mem_singleton] at member
    rcases member with rfl | rfl
    · exact ⟨by decide, by decide⟩
    · exact ⟨by decide, by decide⟩
  have made : (Backend.request ⟨"http://127.0.0.1:8080/v1//", "key"⟩ countAction
      "gemini-2.5-flash" "a \"b\" \\ c\n").isOk = true := by
    decide +kernel
  constructor
  · cases isRequest : Backend.request ⟨"http://127.0.0.1:8080/v1//", "key"⟩ countAction
        "gemini-2.5-flash" "a \"b\" \\ c\n" with
    | error cause =>
        rw [isRequest] at made
        cases made
    | ok request => exact ⟨request, rfl, requests_carry_input.1 _ _ _ _ _ isRequest⟩
  · apply requests_carry_input.2.2.2
    · exact isKey _ (by simp)
    · exact isKey _ (by simp)
    · exact fun _ _ _ _ _ _ => rfl
    · exact fun _ _ _ => rfl
    · intro use member
      rw [List.mem_singleton.mp member]
      exact fun _ _ _ => rfl

end Precis.Gemini

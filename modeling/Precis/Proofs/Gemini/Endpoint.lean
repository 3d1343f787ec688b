import Precis.Gemini.Summarizer
import Precis.Proofs.Http.Exchange

/-!
Contract: the requests to the Gemini interface.

Owns when a request can be made: it depends on the base address and on the
credential only, and not on the model, the action or the input. Owns also that
a call succeeds exactly if its request is answered so.

Does not own what an answer says.
-/

namespace Precis.Gemini

open Url (Plain SpeaksHttp)
open Http (AnswersWithin)

/-! ### Addresses -/

/-- The actions of the interface. -/
def actions : List String := [countAction, generateAction]

/-- What the provider calls the models of the catalog. -/
def providerNames : List String :=
  Model.Catalog.geminiDescriptors.map Model.Descriptor.providerName

/-- What follows the directory of the models in an address. -/
def lastSegment (model action : String) : List Char :=
  model.toList ++ ':' :: action.toList

theorem lastSegment_plain :
    ∀ model ∈ providerNames, ∀ action ∈ actions, Plain (lastSegment model action) := by
  have all : ∀ model ∈ providerNames, ∀ action ∈ actions,
      ((lastSegment model action).all fun character => !Url.isEdge character) = true := by
    decide
  intro model knownModel action knownAction
  exact Url.plain_of_all (all model knownModel action knownAction)

theorem providerName_mem
    {model : Model.Id}
    {descriptor : Model.Descriptor}
    (described : Model.Catalog.gemini.descriptor? model = some descriptor) :
    descriptor.providerName ∈ providerNames := by
  unfold Model.Catalog.descriptor? Model.describe? at described
  have member := List.mem_reverse.mp (List.mem_of_find?_eq_some described)
  exact List.mem_map_of_mem member

namespace Backend

variable {backend : Backend} {action model input : String}

theorem endpoint_eq (backend : Backend) (model action : String) :
    backend.endpoint model action =
      String.ofList ((withoutFinalSlashes backend.baseUrl).toList ++
        '/' :: (Url.modelsDirectory ++ '/' :: lastSegment model action)) := by
  have directory : "/models/".toList = '/' :: (Url.modelsDirectory ++ ['/']) := by decide
  have separator : ":".toList = [':'] := by decide
  apply String.toList_injective
  simp only [endpoint, lastSegment, String.toList_append, String.toList_ofList, directory,
    separator, List.append_assoc, List.cons_append, List.nil_append]

/-! ### Requests -/

theorem request_eq_ok_iff [Url.DomainCoding] {request : Http.Request} :
    backend.request action model input = .ok request ↔
      ∃ url, Url.parse (backend.endpoint model action) = .ok url ∧ url.hasHost = true ∧
        SpeaksHttp url.scheme ∧ Http.isHeaderValue backend.credential = true ∧
        request =
          { method := .post
            url
            headers := [("x-goog-api-key", backend.credential), Http.jsonHeader]
            body := some (requestBody input) } := by
  have contentType : Http.isHeaderValue Http.jsonHeader.2 = true := by decide
  unfold Backend.request
  cases Url.parse (backend.endpoint model action) with
  | error cause => simp
  | ok url =>
      simp only [Http.Request.make_eq_ok_iff, List.all_cons, List.all_nil, contentType,
        Bool.and_true, Except.ok.injEq, exists_eq_left']
      constructor
      · rintro ⟨host, sendable, speaks, isRequest⟩
        exact ⟨host, speaks, sendable, isRequest⟩
      · rintro ⟨host, speaks, sendable, isRequest⟩
        exact ⟨host, sendable, speaks, isRequest⟩

/-- A request that has an action of a model done on an input. -/
structure Asks
    [Url.DomainCoding]
    (backend : Backend)
    (action model input : String)
    (request : Http.Request) : Prop where
  method : request.method = .post
  url : Url.parse (backend.endpoint model action) = .ok request.url
  headers : request.headers = [("x-goog-api-key", backend.credential), Http.jsonHeader]
  body : request.body = some (requestBody input)

theorem asks_of_request
    [Url.DomainCoding]
    {request : Http.Request}
    (made : backend.request action model input = .ok request) :
    backend.Asks action model input request := by
  obtain ⟨url, parsed, -, -, -, rfl⟩ := request_eq_ok_iff.mp made
  exact ⟨rfl, parsed, rfl, rfl⟩

/-- If one request of the interface can be made, all can. -/
theorem exists_request
    [Url.DomainCoding]
    {otherAction otherModel : String}
    {request : Http.Request}
    (made : backend.request action model input = .ok request)
    (knownAction : action ∈ actions)
    (knownModel : model ∈ providerNames)
    (knownOtherAction : otherAction ∈ actions)
    (knownOtherModel : otherModel ∈ providerNames)
    (otherInput : String) :
    ∃ other, backend.request otherAction otherModel otherInput = .ok other := by
  obtain ⟨url, parsed, host, speaks, sendable, -⟩ := request_eq_ok_iff.mp made
  rw [endpoint_eq] at parsed
  obtain ⟨other, otherParsed, sameScheme, sameHost⟩ :=
    Url.exists_parse_of_parse (lastSegment_plain model knownModel action knownAction)
      (lastSegment_plain otherModel knownOtherModel otherAction knownOtherAction) parsed speaks
  rw [← endpoint_eq] at otherParsed
  have otherHost : other.hasHost = true := by
    unfold Url.hasHost at host ⊢
    rw [sameHost]
    exact host
  exact ⟨_, request_eq_ok_iff.mpr
    ⟨other, otherParsed, otherHost, sameScheme ▸ speaks, sendable, rfl⟩⟩

/-! ### Calls -/

theorem call_result_eq_ok_iff
    [Url.DomainCoding]
    {α : Type}
    {serve : Http.Request → Option Http.Handling}
    {decode : Json.Decoder α}
    {value : α} :
    (backend.call serve action decode model input).result = .ok value ↔
      ∃ request response, backend.request action model input = .ok request ∧
        AnswersWithin timeLimit serve request response ∧
        readResponse decode response = .ok value := by
  unfold Backend.call
  cases backend.request action model input with
  | error cause => simp
  | ok request =>
      simp only [readHandling, Except.ok.injEq, exists_eq_left', exists_and_left,
        ← Http.Handling.within_response_eq_some_iff]
      cases (Http.Handling.within timeLimit.nanoseconds (serve request)).response with
      | none => simp
      | some response => simp

end Backend

end Precis.Gemini

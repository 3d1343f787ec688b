import Precis.Gemini.Wire
import Precis.Http.Exchange
import Precis.Json.Reader
import Precis.Summary.Session
import Precis.Text.Integer

/-!
Contract: models behind the Gemini interface.

This module owns the two calls of the interface: the request that each makes,
and what a response to it means. A response that asks to wait is a rate limit
whatever else it holds; one whose body cannot be read, and one that is no
success, is a failed request; a success is decoded. It also gives a summarizer
these models as its surroundings.
-/

namespace Precis.Gemini

variable [Url.DomainCoding]

def provider : String := "gemini"

def timeLimit : Duration := .ofSeconds 120

structure Backend where
  baseUrl : String
  credential : String

def withoutFinalSlashes (text : String) : String :=
  String.ofList ((text.toList.reverse.dropWhile (· == '/')).reverse)

namespace Backend

def endpoint (backend : Backend) (model action : String) : String :=
  withoutFinalSlashes backend.baseUrl ++ "/models/" ++ model ++ ":" ++ action

def request (backend : Backend) (action model input : String) : Except Http.Error Http.Request :=
  match Url.parse (backend.endpoint model action) with
  | .error _ => .error (.notMade none)
  | .ok url =>
      Http.Request.make .post url
        [("x-goog-api-key", backend.credential), Http.jsonHeader]
        (some (requestBody input))

end Backend

def countAction : String := "countTokens"

def generateAction : String := "generateContent"

def requestFailed (reason : String) : Summary.Error :=
  .requestFailed provider reason

/-- How long a response asks to wait, if it says so in whole seconds. -/
def retryAfter? (headers : List (String × String)) : Option Duration :=
  match Http.visibleHeader? "retry-after" headers with
  | none => none
  | some value =>
      match Text.readInteger .unsigned64 (Text.trim value).toList with
      | .ok seconds => some (.ofSeconds seconds.toNat)
      | .error _ => none

/-- How many characters of a body a message shows. -/
def shownLength : Nat := 512

/-- The beginning of a body, with a mark if more follows. -/
def excerpt (body : String) : String :=
  if body.length ≤ shownLength then body
  else String.ofList (body.toList.take shownLength) ++ "…"

/-- What a text that came with success says. The words for text that is no JSON
stand for those of the reader in use, which tell where and why it gave up. -/
def readText {α : Type} (decode : Json.Decoder α) (text : String) : Except Summary.Error α :=
  match Json.Document.ofText? text with
  | none => .error (.invalidResponse provider "malformed JSON")
  | some document =>
      match decode document with
      | .ok value => .ok value
      | .error failure => .error (.invalidResponse provider failure.message)

def readResponse
    {α : Type}
    (decode : Json.Decoder α)
    (response : Http.Response) : Except Summary.Error α :=
  if response.status = Http.tooManyRequests then
    .error (.rateLimited provider (retryAfter? response.headers))
  else
    match response.text? with
    | none =>
        .error (requestFailed ("failed to read response body: " ++ Http.Error.message .notReadable))
    | some text =>
        if Http.isSuccess response.status then readText decode text
        else .error (requestFailed (Http.statusText response.status ++ ": " ++ excerpt text))

/-- What comes of a request, as far as a client sees it. -/
def readHandling
    {α : Type}
    (decode : Json.Decoder α)
    (request : Http.Request)
    (handling : Http.Handling) : Except Summary.Error α :=
  match handling.response with
  | none => .error (requestFailed (Http.Error.message (.notAnswered request.url)))
  | some response => readResponse decode response

/-- Makes a call. `serve` is what the server does with a request. -/
def Backend.call
    {α : Type}
    (backend : Backend)
    (serve : Http.Request → Option Http.Handling)
    (action : String)
    (decode : Json.Decoder α)
    (model input : String) : Summary.Answer α :=
  match backend.request action model input with
  | .error cause => { delay := 0, result := .error (requestFailed cause.message) }
  | .ok request =>
      let handling := Http.Handling.within timeLimit.nanoseconds (serve request)
      { delay := handling.delay, result := readHandling decode request handling }

def Backend.count
    (backend : Backend)
    (serve : Http.Request → Option Http.Handling)
    (model input : String) : Summary.Answer UInt64 :=
  backend.call serve countAction decodeCount model input

def Backend.generate
    (backend : Backend)
    (serve : Http.Request → Option Http.Handling)
    (model input : String) : Summary.Answer Summary.Reply :=
  backend.call serve generateAction decodeReply model input

/-- What a call of an action sent, if a request could be made. -/
def Backend.sentBy?
    {α : Type}
    (backend : Backend)
    (action : String)
    (call : Summary.Call α) : Option Http.Sent :=
  match backend.request action call.model call.input with
  | .ok request => some { moment := call.started, request }
  | .error _ => none

def Backend.sent? (backend : Backend) : Summary.Event → Option Http.Sent
  | .count call => backend.sentBy? countAction call
  | .generate call => backend.sentBy? generateAction call
  | _ => none

/-- What the events of a log sent, newest first. -/
def Backend.sent (backend : Backend) (log : Summary.Log) : List Http.Sent :=
  log.filterMap backend.sent?

def Backend.requests (backend : Backend) (log : Summary.Log) : List Http.Request :=
  (backend.sent log).map Http.Sent.request

/-- The surroundings of a summarizer that uses the interface. A handle can always be made. -/
def Backend.surroundings
    (backend : Backend)
    (server : Http.Server)
    (clock : Summary.Log → Instant) : Summary.Surroundings :=
  { create := fun _ _ => .ok ()
    count := fun log _ => backend.count (server (backend.requests log))
    generate := fun log _ => backend.generate (server (backend.requests log))
    clock }

end Precis.Gemini

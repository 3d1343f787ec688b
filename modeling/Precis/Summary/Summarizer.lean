import Precis.Summary.Session
import Precis.Summary.Request

/-!
Contract: from a request to a summary.

This module owns the walk over models. A request names a model or takes the
catalog's order. One attempt counts the tokens of the input, cuts the input
until it fits, asks the ledger, generates, and records what the exchange cost.
A failed attempt leads to the next model after a pause, unless its cause ends
the request; a model that the catalog does not describe ends it too. A text
that is empty counts as a failed attempt. Cancelling abandons the call or the
pause that is being waited for.
-/

namespace Precis.Summary

structure Summarizer where
  credential : Option String
  defaultCeiling : UInt32
  backoff : Duration
  catalog : Model.Catalog
  surroundings : Surroundings

namespace Summarizer

/-- The credential, unless it is missing or empty. -/
def credential? (summarizer : Summarizer) : Option String :=
  summarizer.credential.filter fun credential => credential != ""

/-- Makes the backend handle, unless there is one already. A failure is not remembered. -/
def connect
    (summarizer : Summarizer)
    (credential : String)
    (session : Session) : Except Error Unit × Session :=
  if session.connected then (.ok (), session)
  else
    let answer := summarizer.surroundings.create session.log credential
    let noted := session.note (.create credential answer)
    match answer with
    | .ok () => (.ok (), { noted with connected := true })
    | .error cause => (.error cause, noted)

def count
    (summarizer : Summarizer)
    (cancellation : Cancellation)
    (model input : String)
    (session : Session) : Ended UInt64 × Session :=
  session.call cancellation .count summarizer.surroundings.count model input

/-- Counts, and cuts the input until its count is within the limit. Gives the
input that fits, with its count. -/
def fit
    (summarizer : Summarizer)
    (cancellation : Cancellation)
    (model : String)
    (limit : UInt64)
    (input : String)
    (session : Session) : Ended (String × UInt64) × Session :=
  match summarizer.count cancellation model input session with
  | (.cancelled, after) => (.cancelled, after)
  | (.finished (.error cause), after) => (.finished (.error cause), after)
  | (.finished (.ok tokens), after) =>
      if tokens ≤ limit then (.finished (.ok (input, tokens)), after)
      else if _ : input = "" then
        (.finished (.error (.contextLengthExceeded tokens limit)), after)
      else summarizer.fit cancellation model limit (shrink input) after
termination_by input.length
decreasing_by exact length_shrink_lt (by assumption)

/-- Asks the ledger whether a cost stays within its limit. A ledger without a
limit to enforce is not asked. -/
def check
    (summarizer : Summarizer)
    (cost : UInt64)
    (session : Session) : Except Usage.Exceeded Unit × Session :=
  let now := summarizer.surroundings.clock session.log
  let (verdict, ledger) := session.ledger.check now cost
  (verdict, { session with ledger, log := .check now cost verdict :: session.log })

def record
    (summarizer : Summarizer)
    (cost : UInt64)
    (session : Session) : Session :=
  let now := summarizer.surroundings.clock session.log
  { session with ledger := session.ledger.record now cost, log := .record now cost :: session.log }

/-- Generates from an input that fits, within the limit of the ledger, and
records what the exchange cost: what the provider reports, or else the count. -/
def generate
    (summarizer : Summarizer)
    (cancellation : Cancellation)
    (model input : String)
    (tokens : UInt64)
    (session : Session) : Ended String × Session :=
  match summarizer.check tokens session with
  | (.error exceeded, after) => (.finished (.error (.budgetExceeded exceeded)), after)
  | (.ok (), checked) =>
      match checked.call cancellation .generate summarizer.surroundings.generate model input with
      | (.cancelled, after) => (.cancelled, after)
      | (.finished (.error cause), after) => (.finished (.error cause), after)
      | (.finished (.ok reply), after) =>
          match reply.firstText with
          | .error cause => (.finished (.error cause), after)
          | .ok text =>
              (.finished (.ok text), summarizer.record (reply.usage.getD tokens) after)

def attempt
    (summarizer : Summarizer)
    (cancellation : Cancellation)
    (request : Request)
    (descriptor : Model.Descriptor)
    (session : Session) : Ended String × Session :=
  match summarizer.credential? with
  | none => (.finished (.error (.missingCredential request.family.name)), session)
  | some credential =>
      match summarizer.connect credential session with
      | (.error cause, after) => (.finished (.error cause), after)
      | (.ok (), connected) =>
          let ceiling := min (request.ceilingOr summarizer.defaultCeiling) descriptor.ceiling
          match summarizer.fit cancellation descriptor.providerName ceiling.toUInt64
              request.input connected with
          | (.cancelled, after) => (.cancelled, after)
          | (.finished (.error cause), after) => (.finished (.error cause), after)
          | (.finished (.ok (input, tokens)), fitted) =>
              summarizer.generate cancellation descriptor.providerName input tokens fitted

def candidates (summarizer : Summarizer) (request : Request) : List Model.Id :=
  match request.model with
  | some model => [model]
  | none => summarizer.catalog.preference

def allFailed (models : List Model.Id) : Error :=
  .allModelsFailed (models.map Model.Id.name)

/-- Tries the remaining candidates in order. `all` is the list they come from. -/
def walk
    (summarizer : Summarizer)
    (cancellation : Cancellation)
    (request : Request)
    (all : List Model.Id) :
    (remaining : List Model.Id) → Session → Except Error Digest × Session
  | [], session => (.error (allFailed all), session)
  | model :: rest, session =>
      match summarizer.catalog.descriptor? model with
      | none => (.error (.unsupportedModel model.name), session)
      | some descriptor =>
          if session.isCancelledBy cancellation session.now then (.error .cancelled, session)
          else
            match summarizer.attempt cancellation request descriptor session with
            | (.cancelled, after) => (.error .cancelled, after)
            | (.finished outcome, after) =>
                match conclusion? model outcome with
                | some result => (result, after)
                | none =>
                    if rest.isEmpty then (.error (allFailed all), after)
                    else
                      match after.pause cancellation summarizer.backoff with
                      | (.cancelled, paused) => (.error .cancelled, paused)
                      | (.finished _, paused) =>
                          walk summarizer cancellation request all rest paused
where
  /-- What an attempt settles: a text that is not empty is the summary, a fatal
  cause is the failure, and anything else leaves it to the next model. -/
  conclusion? (model : Model.Id) : Except Error String → Option (Except Error Digest)
    | .ok text => if text = "" then none else some (.ok { text, model })
    | .error cause => if cause.isFatal then some (.error cause) else none

def summarize
    (summarizer : Summarizer)
    (cancellation : Cancellation)
    (request : Request)
    (session : Session) : Except Error Digest × Session :=
  if summarizer.catalog.supports request.family then
    let candidates := summarizer.candidates request
    summarizer.walk cancellation request candidates candidates session
  else (.error (.unsupportedFamily request.family.name), session)

end Summarizer

end Precis.Summary

import Precis.Proofs.Gemini.Endpoint
import Precis.Proofs.Summary.Walk
import Precis.Proofs.Text.Integer

/-!
Contract: what a call makes of the outcome of its exchange.

Owns the precedence among the ways in which an exchange can go wrong: no
response, a limit on the rate, a body that cannot be read, a status that is no
success, a body that does not decode. Owns also what each failure tells: how
long a limit asks to wait, and how much of a body is shown.

Does not own which requests can be made, and what replies say.
-/

namespace Precis.Gemini

open Http (AnswersWithin)

/-! ### How long to wait -/

/-- Names that differ in the case of their letters only. -/
def SameName (left right : String) : Prop :=
  left.map Char.toLower = right.map Char.toLower

/-- The value of the first header of a name. -/
def FirstHeader (name : String) (headers : List (String × String)) (value : String) : Prop :=
  ∃ before label after, headers = before ++ (label, value) :: after ∧ SameName label name ∧
    ∀ header ∈ before, ¬ SameName header.1 name

/-- A header that holds text: tabs and printable characters of ASCII. -/
def IsText (value : String) : Prop :=
  ∀ character ∈ value.toList,
    character = '\t' ∨ 0x20 ≤ character.toNat ∧ character.toNat < 0x7f

/-- The first header that tells how long to wait does so in whole seconds of 64
bits: digits, with a plus sign in front or not, and blanks around them. -/
def AsksToWait (headers : List (String × String)) (seconds : Nat) : Prop :=
  ∃ value digits, FirstHeader "retry-after" headers value ∧ IsText value ∧
    ((Text.trim value).toList = digits ∨ (Text.trim value).toList = '+' :: digits) ∧
    Text.Numeral digits seconds ∧ seconds < 2 ^ 64

theorem header?_eq_some_iff {name value : String} {headers : List (String × String)} :
    Http.header? name headers = some value ↔ FirstHeader name headers value := by
  unfold Http.header? FirstHeader SameName
  rw [Option.map_eq_some_iff]
  simp only [List.find?_eq_some_iff_append, decide_eq_true_eq, Bool.not_eq_true',
    decide_eq_false_iff_not]
  constructor
  · rintro ⟨⟨label, found⟩, ⟨named, before, after, split, others⟩, rfl⟩
    exact ⟨before, label, after, split, named, others⟩
  · rintro ⟨before, label, after, split, named, others⟩
    exact ⟨(label, value), ⟨named, before, after, split, others⟩, rfl⟩

theorem visibleHeader?_eq_some_iff {name value : String} {headers : List (String × String)} :
    Http.visibleHeader? name headers = some value ↔
      FirstHeader name headers value ∧ IsText value := by
  unfold Http.visibleHeader? IsText
  rw [Option.filter_eq_some_iff, header?_eq_some_iff]
  simp [List.all_eq_true]

/-- Seconds of 64 bits are read from exactly the texts of digits with or without a plus sign. -/
theorem readInteger_unsigned64_eq_ok_iff {characters : List Char} {seconds : Nat} :
    Text.readInteger .unsigned64 characters = .ok seconds ↔
      ∃ digits, (characters = digits ∨ characters = '+' :: digits) ∧
        Text.Numeral digits seconds ∧ seconds < 2 ^ 64 := by
  have greatest : Text.IntegerRange.unsigned64.greatest = 18446744073709551615 := rfl
  rw [Text.readInteger_eq_ok_iff]
  constructor
  · rintro ⟨denotes, -, bounded⟩
    rw [greatest] at bounded
    generalize isValue : (seconds : Int) = value at denotes
    cases denotes with
    | plain numeral =>
        obtain rfl := Int.ofNat.inj isValue
        exact ⟨_, .inl rfl, numeral, by omega⟩
    | plus numeral =>
        obtain rfl := Int.ofNat.inj isValue
        exact ⟨_, .inr rfl, numeral, by omega⟩
    | minus signed numeral => exact absurd signed (by decide)
  · rintro ⟨digits, place, numeral, bounded⟩
    have range : Text.IntegerRange.unsigned64.least ≤ (seconds : Int) ∧
        (seconds : Int) ≤ Text.IntegerRange.unsigned64.greatest := by
      rw [greatest]
      exact ⟨Int.natCast_nonneg _, by omega⟩
    rcases place with rfl | rfl
    · exact ⟨.plain numeral, range⟩
    · exact ⟨.plus numeral, range⟩

theorem asksToWait_iff
    {headers : List (String × String)}
    {value : String}
    {seconds : Nat}
    (found : Http.visibleHeader? "retry-after" headers = some value) :
    AsksToWait headers seconds ↔
      Text.readInteger .unsigned64 (Text.trim value).toList = .ok seconds := by
  rw [readInteger_unsigned64_eq_ok_iff]
  constructor
  · rintro ⟨other, digits, first, isText, place⟩
    have same := visibleHeader?_eq_some_iff.mpr ⟨first, isText⟩
    rw [found, Option.some.injEq] at same
    exact ⟨digits, same ▸ place⟩
  · rintro ⟨digits, place⟩
    obtain ⟨first, isText⟩ := visibleHeader?_eq_some_iff.mp found
    exact ⟨value, digits, first, isText, place⟩

/-- The waiting time is the one that the headers ask for, and none if they ask for none. -/
theorem exists_retryAfter? (headers : List (String × String)) :
    ∃ wait : Option Nat, retryAfter? headers = wait.map Duration.ofSeconds ∧
      ∀ seconds, wait = some seconds ↔ AsksToWait headers seconds := by
  unfold retryAfter?
  cases found : Http.visibleHeader? "retry-after" headers with
  | none =>
      refine ⟨none, rfl, fun seconds => ?_⟩
      simp only [reduceCtorEq, false_iff]
      rintro ⟨value, digits, first, isText, -⟩
      rw [visibleHeader?_eq_some_iff.mpr ⟨first, isText⟩] at found
      contradiction
  | some value =>
      simp only [asksToWait_iff found]
      cases read : Text.readInteger .unsigned64 (Text.trim value).toList with
      | error failure => exact ⟨none, rfl, fun seconds => by simp⟩
      | ok number =>
          have positive : 0 ≤ number := (Text.readInteger_eq_ok_iff.mp read).2.1
          refine ⟨some number.toNat, rfl, fun seconds => ?_⟩
          simp only [Option.some.injEq, Except.ok.injEq]
          omega

/-! ### How much of a body is shown -/

/-- What a message shows of a body: all of it, or its first 512 characters and an ellipsis. -/
def Shows (body shown : String) : Prop :=
  body.length ≤ 512 ∧ shown = body ∨
    512 < body.length ∧ shown.toList = body.toList.take 512 ++ ['…']

theorem shows_excerpt (body : String) : Shows body (excerpt body) := by
  unfold Shows excerpt
  by_cases short : body.length ≤ shownLength
  · rw [if_pos short]
    exact .inl ⟨short, rfl⟩
  · rw [if_neg short, String.toList_append, String.toList_ofList]
    exact .inr ⟨Nat.lt_of_not_le short, rfl⟩

/-! ### The outcomes of an exchange -/

/-- The response that a call gets: its request can be made, and is answered in time. -/
def Backend.Receives
    [Url.DomainCoding]
    (backend : Backend)
    (serve : Http.Request → Option Http.Handling)
    (action model input : String)
    (response : Http.Response) : Prop :=
  ∃ request, backend.request action model input = .ok request ∧
    AnswersWithin timeLimit serve request response

/-- What a text decodes to. -/
def Decodes {α : Type} (decode : Json.Decoder α) (text : String) (value : α) : Prop :=
  ∃ document, Json.Document.ofText? text = some document ∧ decode document = .ok value

/-- A failure that does not end a request: it goes on to the next model. -/
def PassesOn (error : Summary.Error) : Prop :=
  error.isFatal = false ∧
    ∀ model, Summary.Summarizer.walk.conclusion? model (.error error) = none

/-- The result of a call, by what it receives. A limit comes before anything
else that a response says, and a body that cannot be read before any other
status. Every failure leaves the request to the next model. -/
structure Classified
    {α : Type}
    (decode : Json.Decoder α)
    (receives : Http.Response → Prop)
    (result : Except Summary.Error α) : Prop where
  unanswered : (∀ response, ¬ receives response) →
    ∃ reason, result = .error (.requestFailed provider reason)
  limited : ∀ response, receives response → response.status = 429 →
    ∃ wait : Option Nat,
      result = .error (.rateLimited provider (wait.map Duration.ofSeconds)) ∧
        ∀ seconds, wait = some seconds ↔ AsksToWait response.headers seconds
  unreadable : ∀ response, receives response → response.status ≠ 429 → response.body = none →
    ∃ reason, result = .error (.requestFailed provider reason)
  refused : ∀ response body, receives response → response.status ≠ 429 →
    response.text? = some body → ¬ (200 ≤ response.status ∧ response.status < 300) →
    ∃ shown, Shows body shown ∧
      result = .error (.requestFailed provider (Http.statusText response.status ++ ": " ++ shown))
  decoded : ∀ response body value, receives response →
    200 ≤ response.status ∧ response.status < 300 → response.text? = some body →
    Decodes decode body value → result = .ok value
  undecodable : ∀ response body, receives response →
    200 ≤ response.status ∧ response.status < 300 → response.text? = some body →
    (∀ value, ¬ Decodes decode body value) →
    ∃ reason, result = .error (.invalidResponse provider reason)
  succeeds : ∀ value, result = .ok value →
    ∃ response, receives response ∧ 200 ≤ response.status ∧ response.status < 300
  passesOn : ∀ error, result = .error error → PassesOn error

section Outcomes

variable {α : Type} {decode : Json.Decoder α}

theorem passesOn_of_not_fatal {error : Summary.Error} (notFatal : error.isFatal = false) :
    PassesOn error :=
  ⟨notFatal, fun _ => Summary.Summarizer.conclusion?_eq_none_iff.mpr notFatal⟩

theorem readText_eq_ok_iff {text : String} {value : α} :
    readText decode text = .ok value ↔ Decodes decode text value := by
  unfold readText Decodes
  cases Json.Document.ofText? text with
  | none => simp
  | some document => cases found : decode document <;> simp [found]

theorem readText_undecodable {text : String} (undecodable : ∀ value, ¬ Decodes decode text value) :
    ∃ reason, readText decode text = .error (.invalidResponse provider reason) := by
  unfold readText
  cases isDocument : Json.Document.ofText? text with
  | none => exact ⟨_, rfl⟩
  | some document =>
      cases decoded : decode document with
      | error failure => exact ⟨failure.message, by simp [decoded]⟩
      | ok value => exact absurd ⟨document, isDocument, decoded⟩ (undecodable value)

theorem exists_of_readText_eq_error {text : String} {error : Summary.Error}
    (failed : readText decode text = .error error) :
    ∃ reason, error = .invalidResponse provider reason := by
  by_cases decodes : ∃ value, Decodes decode text value
  · obtain ⟨value, decodes⟩ := decodes
    rw [readText_eq_ok_iff.mpr decodes] at failed
    cases failed
  · obtain ⟨reason, invalid⟩ := readText_undecodable (not_exists.mp decodes)
    rw [invalid] at failed
    exact ⟨reason, (Except.error.inj failed).symm⟩

/-! ### What a response means -/

section Responses

variable {response : Http.Response}

theorem readResponse_limited (limited : response.status = Http.tooManyRequests) :
    readResponse decode response =
      .error (.rateLimited provider (retryAfter? response.headers)) := by
  unfold readResponse
  rw [if_pos limited]

variable (unlimited : response.status ≠ Http.tooManyRequests)

include unlimited

theorem readResponse_unreadable (unreadable : response.body = none) :
    ∃ reason, readResponse decode response = .error (.requestFailed provider reason) := by
  have noText : response.text? = none := by rw [Http.Response.text?, unreadable]; rfl
  unfold readResponse
  rw [if_neg unlimited, noText]
  exact ⟨_, rfl⟩

variable {body : String} (isText : response.text? = some body)

include isText

theorem readResponse_refused (refused : Http.isSuccess response.status = false) :
    readResponse decode response =
      .error (.requestFailed provider
        (Http.statusText response.status ++ ": " ++ excerpt body)) := by
  unfold readResponse
  rw [if_neg unlimited, isText]
  simp only [refused, Bool.false_eq_true, if_false]
  rfl

theorem readResponse_succeeded (success : Http.isSuccess response.status = true) :
    readResponse decode response = readText decode body := by
  unfold readResponse
  rw [if_neg unlimited, isText]
  simp only [success, if_true]

end Responses

/-- A response is a limit, cannot be read, is refused, or has a text to decode. -/
theorem readResponse_cases (decode : Json.Decoder α) (response : Http.Response) :
    (∃ error, readResponse decode response = .error error ∧ error.isFatal = false) ∨
      ∃ body, response.text? = some body ∧ Http.isSuccess response.status = true ∧
        readResponse decode response = readText decode body := by
  by_cases limited : response.status = Http.tooManyRequests
  · exact .inl ⟨_, readResponse_limited limited, rfl⟩
  · cases isText : response.text? with
    | none =>
        have unreadable : response.body = none := Option.map_eq_none_iff.mp isText
        obtain ⟨reason, failed⟩ : ∃ reason, readResponse decode response =
            .error (.requestFailed provider reason) :=
          readResponse_unreadable limited unreadable
        exact .inl ⟨_, failed, rfl⟩
    | some body =>
        cases success : Http.isSuccess response.status with
        | false => exact .inl ⟨_, readResponse_refused limited isText success, rfl⟩
        | true => exact .inr ⟨body, rfl, rfl, readResponse_succeeded limited isText success⟩

/-! ### What a call receives -/

theorem classified_of_unanswered
    {receives : Http.Response → Prop}
    (nothing : ∀ response, ¬ receives response)
    (reason : String) :
    Classified decode receives (.error (requestFailed reason)) where
  unanswered _ := ⟨reason, rfl⟩
  limited response received := absurd received (nothing response)
  unreadable response received := absurd received (nothing response)
  refused response _ received := absurd received (nothing response)
  decoded response _ _ received := absurd received (nothing response)
  undecodable response _ received := absurd received (nothing response)
  succeeds _ succeeded := nomatch succeeded
  passesOn error failed := by
    obtain rfl := Except.error.inj failed
    exact passesOn_of_not_fatal rfl

/-- Of a limit, a body that cannot be read, a refusal and a success, one is at hand. -/
theorem classified_of_received
    {receives : Http.Response → Prop}
    {response : Http.Response}
    (received : receives response)
    (only : ∀ other, receives other → other = response) :
    Classified decode receives (readResponse decode response) where
  unanswered nothing := absurd received (nothing response)
  limited other otherReceived limited := by
    obtain rfl := only other otherReceived
    obtain ⟨wait, isWait, asked⟩ := exists_retryAfter? other.headers
    exact ⟨wait, by rw [readResponse_limited limited, isWait], asked⟩
  unreadable other otherReceived unlimited unreadable := by
    obtain rfl := only other otherReceived
    exact readResponse_unreadable unlimited unreadable
  refused other body otherReceived unlimited isText refused := by
    obtain rfl := only other otherReceived
    rw [← Http.isSuccess_iff, Bool.not_eq_true] at refused
    exact ⟨excerpt body, shows_excerpt body, readResponse_refused unlimited isText refused⟩
  decoded other body value otherReceived success isText decodes := by
    obtain rfl := only other otherReceived
    have unlimited : other.status ≠ Http.tooManyRequests := by
      unfold Http.tooManyRequests
      omega
    rw [readResponse_succeeded unlimited isText (Http.isSuccess_iff.mpr success)]
    exact readText_eq_ok_iff.mpr decodes
  undecodable other body otherReceived success isText undecodable := by
    obtain rfl := only other otherReceived
    have unlimited : other.status ≠ Http.tooManyRequests := by
      unfold Http.tooManyRequests
      omega
    rw [readResponse_succeeded unlimited isText (Http.isSuccess_iff.mpr success)]
    exact readText_undecodable undecodable
  succeeds value succeeded := by
    rcases readResponse_cases decode response with ⟨error, failed, -⟩ | ⟨body, -, success, -⟩
    · rw [failed] at succeeded
      cases succeeded
    · exact ⟨response, received, Http.isSuccess_iff.mp success⟩
  passesOn error failed := by
    apply passesOn_of_not_fatal
    rcases readResponse_cases decode response with
      ⟨other, otherFailed, notFatal⟩ | ⟨body, -, -, read⟩
    · rw [otherFailed] at failed
      rwa [← Except.error.inj failed]
    · rw [read] at failed
      obtain ⟨reason, rfl⟩ := exists_of_readText_eq_error failed
      rfl

variable
  (serve : Http.Request → Option Http.Handling)
  (backend : Backend)
  (action : String)
  (decode : Json.Decoder α)
  (model input : String)

/-- A call is classified by the response that it receives. -/
theorem Backend.call_classified [Url.DomainCoding] :
    Classified decode (backend.Receives serve action model input)
      (backend.call serve action decode model input).result := by
  unfold Backend.call
  cases made : backend.request action model input with
  | error cause =>
      apply classified_of_unanswered
      rintro response ⟨request, isMade, -⟩
      rw [made] at isMade
      cases isMade
  | ok request =>
      have receives_iff (response : Http.Response) :
          backend.Receives serve action model input response ↔
            AnswersWithin timeLimit serve request response := by
        simp [Backend.Receives, made]
      simp only [readHandling]
      cases seen : (Http.Handling.within timeLimit.nanoseconds (serve request)).response with
      | none =>
          apply classified_of_unanswered
          intro response received
          have sees := Http.Handling.within_response_eq_some_iff.mpr
            ((receives_iff response).mp received)
          rw [seen] at sees
          cases sees
      | some response =>
          have answers := Http.Handling.within_response_eq_some_iff.mp seen
          apply classified_of_received ((receives_iff response).mpr answers)
          intro other received
          exact ((receives_iff other).mp received).unique answers

end Outcomes

/-- Whatever the base address, the model, the input and the server, both calls
of the interface are classified by the response that they receive. -/
theorem calls_classified
    [Url.DomainCoding]
    (backend : Backend)
    (serve : Http.Request → Option Http.Handling)
    (model input : String) :
    Classified decodeCount (backend.Receives serve countAction model input)
        (backend.count serve model input).result ∧
      Classified decodeReply (backend.Receives serve generateAction model input)
        (backend.generate serve model input).result :=
  ⟨backend.call_classified serve countAction decodeCount model input,
    backend.call_classified serve generateAction decodeReply model input⟩

end Precis.Gemini

import Precis.Proofs.Json.Field
import Precis.Proofs.Service.Base

/-!
Contract: what a probe and a call report, and of which responses.

Owns that a probe reports a status, and a call a result, exactly if a response
of success brings it; that every other outcome is an error which names the
service; and that neither sends more than one request, or anything at all over
a connection that was closed.

Does not own which requests can be made.
-/

namespace Precis.Service

open Http (AnswersWithin)
open Json (Names StandsOnce)

/-! ### Health reports -/

/-- A document that reports a status by the given name. -/
def Reports (document : Json.Document) (name : String) : Prop :=
  ∃ status, StandsOnce "status" status document ∧ Names name status

theorem healthReport_decode_eq_ok_iff {document : Json.Document} {report : HealthReport} :
    HealthReport.decode document = .ok report ↔
      ∃ name, Reports document name ∧ report.status = ServingStatus.ofName name := by
  unfold HealthReport.decode HealthReport.fields
  rw [Json.decodeRecord_required_eq_ok_iff]
  unfold ServingStatus.decode Reports
  simp only [Json.decodeName_eq_ok_iff]
  constructor
  · rintro ⟨status, _, stands, ⟨name, names, isStatus⟩, rfl⟩
    exact ⟨name, ⟨status, stands, names⟩, (Except.ok.inj isStatus).symm⟩
  · rintro ⟨name, ⟨status, stands, names⟩, isStatus⟩
    exact ⟨status, report.status, stands, ⟨name, names, by rw [isStatus]⟩, rfl⟩

theorem ofName_eq_serving_iff {name : String} :
    ServingStatus.ofName name = .serving ↔ name = "SERVING" := by
  unfold ServingStatus.ofName
  by_cases serving : name = "SERVING"
  · simp [serving]
  · rw [if_neg serving]
    split <;> simp [serving]

theorem ofName_eq_notServing_iff {name : String} :
    ServingStatus.ofName name = .notServing ↔ name = "NOT_SERVING" := by
  unfold ServingStatus.ofName
  by_cases serving : name = "SERVING"
  · rw [if_pos serving, serving]
    decide
  · rw [if_neg serving]
    split <;> simp [*]

theorem ofName_eq_unknown_iff {name : String} :
    ServingStatus.ofName name = .unknown ↔ name ≠ "SERVING" ∧ name ≠ "NOT_SERVING" := by
  rw [ne_eq, ne_eq, ← ofName_eq_serving_iff, ← ofName_eq_notServing_iff]
  cases ServingStatus.ofName name <;> decide

/-! ### What a use receives -/

/-- The body of a response, read to its end, is JSON text that spells a document. -/
def HasDocument (response : Http.Response) (document : Json.Document) : Prop :=
  ∃ bytes, response.body = some bytes ∧ Json.Document.ofBytes? bytes = some document

/-- The response that a use of a connection gets: the connection is open, the
request can be made, and it is answered in time. -/
def Receives
    (held : Held Connection)
    (limit : Duration)
    (serve : Http.Request → Option Http.Handling)
    (request : Except Error Http.Request)
    (response : Http.Response) : Prop :=
  held.isClosed = false ∧ ∃ made, request = .ok made ∧ AnswersWithin limit serve made response

section Send

variable
  {α : Type}
  {held : Held Connection}
  {limit : Duration}
  {serve : Http.Request → Option Http.Handling}
  {request : Except Error Http.Request}
  {failed : String → Error}
  {read : Http.Response → Except Error α}

theorem send_of_receives {response : Http.Response}
    (receives : Receives held limit serve request response) :
    (Connection.send held limit serve request failed read).result = read response := by
  obtain ⟨isOpen, made, rfl, answers⟩ := receives
  have sees := Http.Handling.within_response_eq_some_iff.mpr answers
  simp only [Connection.send, isOpen, Bool.false_eq_true, if_false, sees]

/-- Without a response, a use of an open connection fails as its request does,
or as an unanswered request. -/
theorem send_of_not_receives
    (isOpen : held.isClosed = false)
    (nothing : ∀ response, ¬ Receives held limit serve request response) :
    ∃ error, (Connection.send held limit serve request failed read).result = .error error ∧
      (request = .error error ∨ ∃ reason, error = failed reason) := by
  cases request with
  | error error =>
      refine ⟨error, ?_, .inl rfl⟩
      simp only [Connection.send, isOpen, Bool.false_eq_true, if_false]
      rfl
  | ok made =>
      have unseen : (Http.Handling.within limit.nanoseconds (serve made)).response = none := by
        apply Option.eq_none_iff_forall_ne_some.mpr
        intro response sees
        exact nothing response
          ⟨isOpen, made, rfl, Http.Handling.within_response_eq_some_iff.mp sees⟩
      refine ⟨failed (Http.Error.message (.notAnswered made.url)), ?_, .inr ⟨_, rfl⟩⟩
      simp only [Connection.send, isOpen, Bool.false_eq_true, if_false, unseen]

theorem length_sent_send_le_one :
    (Connection.send held limit serve request failed read).sent.length ≤ 1 := by
  unfold Connection.send
  split
  case isTrue => exact Nat.zero_le 1
  case isFalse =>
    cases request with
    | error error => exact Nat.zero_le 1
    | ok made => exact Nat.le_refl 1

/-- A use of a connection succeeds if it receives a response that is read as a success. -/
theorem send_eq_ok_iff {value : α} :
    (Connection.send held limit serve request failed read).result = .ok value ↔
      ∃ response, Receives held limit serve request response ∧ read response = .ok value := by
  constructor
  · intro succeeded
    cases isClosed : held.isClosed with
    | true =>
        rw [Connection.send_of_isClosed isClosed] at succeeded
        cases succeeded
    | false =>
        by_cases received : ∃ response, Receives held limit serve request response
        · obtain ⟨response, receives⟩ := received
          rw [send_of_receives receives] at succeeded
          exact ⟨response, receives, succeeded⟩
        · obtain ⟨error, isError, -⟩ : ∃ error,
              (Connection.send held limit serve request failed read).result = .error error ∧
                (request = .error error ∨ ∃ reason, error = failed reason) :=
            send_of_not_receives isClosed (not_exists.mp received)
          rw [isError] at succeeded
          cases succeeded
  · rintro ⟨response, receives, isValue⟩
    rw [send_of_receives receives, isValue]

/-- A use of an open connection fails before a response, or in reading it. -/
theorem send_eq_error
    {error : Error}
    (isOpen : held.isClosed = false)
    (isError : (Connection.send held limit serve request failed read).result = .error error) :
    request = .error error ∨ (∃ reason, error = failed reason) ∨
      ∃ response, read response = .error error := by
  by_cases received : ∃ response, Receives held limit serve request response
  · obtain ⟨response, receives⟩ := received
    rw [send_of_receives receives] at isError
    exact .inr (.inr ⟨response, isError⟩)
  · obtain ⟨other, isOther, cause⟩ : ∃ error,
        (Connection.send held limit serve request failed read).result = .error error ∧
          (request = .error error ∨ ∃ reason, error = failed reason) :=
      send_of_not_receives isOpen (not_exists.mp received)
    rw [isOther] at isError
    obtain rfl := Except.error.inj isError
    rcases cause with unmade | unanswered
    · exact .inl unmade
    · exact .inr (.inl unanswered)

end Send

/-! ### Failures before and after a response -/

theorem request_eq_error
    [Url.DomainCoding]
    {connection : Connection}
    {failed : String → Error}
    {method : Http.Method}
    {path : String}
    {headers : List (String × String)}
    {body : Option Json.Value}
    {error : Error}
    (unmade : connection.request failed method path headers body = .error error) :
    (∃ reason, error = connection.callFailed path reason) ∨ ∃ reason, error = failed reason := by
  unfold Connection.request at unmade
  cases joined : connection.base.join path with
  | error cause =>
      rw [joined] at unmade
      exact .inl ⟨cause.message, (Except.error.inj unmade).symm⟩
  | ok url =>
      cases made : Http.Request.make method url headers body with
      | error cause =>
          simp only [joined, made] at unmade
          exact .inr ⟨cause.message, (Except.error.inj unmade).symm⟩
      | ok request =>
          simp only [joined, made] at unmade
          cases unmade

theorem readHealth_eq_error
    {connection : Connection}
    {response : Http.Response}
    {error : Error}
    (isError : connection.readHealth response = .error error) :
    ∃ reason, error = connection.probeFailed reason := by
  unfold Connection.readHealth at isError
  cases success : Http.isSuccess response.status with
  | false =>
      simp only [success, Bool.not_false, if_true] at isError
      exact ⟨_, (Except.error.inj isError).symm⟩
  | true =>
      cases report : Connection.healthReport? response with
      | none =>
          simp only [success, report, Bool.not_true, Bool.false_eq_true, if_false] at isError
          exact ⟨_, (Except.error.inj isError).symm⟩
      | some found =>
          simp only [success, report, Bool.not_true, Bool.false_eq_true, if_false] at isError
          cases isError

theorem readReply_eq_error
    {connection : Connection}
    {method : String}
    {response : Http.Response}
    {error : Error}
    (isError : connection.readReply method response = .error error) :
    ∃ reason, error = connection.callFailed method reason := by
  unfold Connection.readReply at isError
  cases success : Http.isSuccess response.status with
  | false =>
      simp only [success, Bool.not_false, if_true] at isError
      exact ⟨_, (Except.error.inj isError).symm⟩
  | true =>
      cases reply : Connection.reply? response with
      | none =>
          simp only [success, reply, Bool.not_true, Bool.false_eq_true, if_false] at isError
          exact ⟨_, (Except.error.inj isError).symm⟩
      | some value =>
          simp only [success, reply, Bool.not_true, Bool.false_eq_true, if_false] at isError
          cases isError

theorem readReply_refused
    {response : Http.Response}
    (connection : Connection)
    (method : String)
    (refused : Http.isSuccess response.status = false) :
    connection.readReply method response =
      .error (connection.callFailed method
        (Http.statusText response.status ++ ": " ++ response.text?.getD "")) := by
  unfold Connection.readReply
  rw [refused, Bool.not_false, if_pos rfl]

theorem conclude_eq_error
    {α : Type}
    (operation : Operation α)
    {service : String}
    {reply : Except Error Json.Value}
    {error : Error}
    (isError : operation.conclude service reply = .error error) :
    reply = .error error ∨ ∃ reason, error = .callFailed service operation.method reason := by
  cases reply with
  | error cause => exact .inl (congrArg _ (Except.error.inj isError))
  | ok value =>
      unfold Operation.conclude at isError
      cases decoded : operation.decode value.toDocument with
      | ok result =>
          simp only [decoded] at isError
          cases isError
      | error failure =>
          simp only [decoded] at isError
          exact .inr ⟨failure.message, (Except.error.inj isError).symm⟩

/-! ### Documents of a response -/

theorem healthReport?_eq_some_iff {response : Http.Response} {status : ServingStatus} :
    Connection.healthReport? response = some { status } ↔
      ∃ document name, HasDocument response document ∧ Reports document name ∧
        status = ServingStatus.ofName name := by
  simp only [Connection.healthReport?, HasDocument, Option.bind_eq_some_iff, toOption_eq_some_iff,
    healthReport_decode_eq_ok_iff]
  constructor
  · rintro ⟨document, isDocument, name, reports, isStatus⟩
    exact ⟨document, name, isDocument, reports, isStatus⟩
  · rintro ⟨document, name, isDocument, reports, isStatus⟩
    exact ⟨document, isDocument, name, reports, isStatus⟩

theorem reply?_eq_some_iff {response : Http.Response} {value : Json.Value} :
    Connection.reply? response = some value ↔
      ∃ document, HasDocument response document ∧ document.toValue? = some value := by
  simp only [Connection.reply?, HasDocument, Option.bind_eq_some_iff]

/-! ### Probes -/

/-- A response of success is received, and its body spells a document. -/
def Delivers (receives : Http.Response → Prop) (document : Json.Document) : Prop :=
  ∃ response, receives response ∧ (200 ≤ response.status ∧ response.status < 300) ∧
    HasDocument response document

/-- An error that names a service as the one that was not reached or used. -/
inductive Blames (service : String) : Error → Prop
  | closed : Blames service (.closed service)
  | probeFailed (reason : String) : Blames service (.probeFailed service reason)
  | callFailed (method reason : String) : Blames service (.callFailed service method reason)

/-- A probe reports what a response of success says, and otherwise fails. -/
structure Probed
    (held : Held Connection)
    (receives : Http.Response → Prop)
    (use : Use ServingStatus) : Prop where
  serving :
    use.result = .ok .serving ↔ ∃ document, Delivers receives document ∧ Reports document "SERVING"
  notServing :
    use.result = .ok .notServing ↔
      ∃ document, Delivers receives document ∧ Reports document "NOT_SERVING"
  unknown :
    use.result = .ok .unknown ↔
      ∃ document name, Delivers receives document ∧ Reports document name ∧
        name ≠ "SERVING" ∧ name ≠ "NOT_SERVING"
  blames : ∀ error, use.result = .error error → Blames held.connection.name error
  closed :
    held.isClosed = true →
      use.sent = [] ∧ use.result = .error (.closed held.connection.name)
  atMostOne : use.sent.length ≤ 1

variable
  [Url.DomainCoding]
  (held : Held Connection)
  (limit : Duration)
  (serve : Http.Request → Option Http.Handling)

theorem check_eq_ok_iff {status : ServingStatus} :
    (Connection.check held limit serve).result = .ok status ↔
      ∃ document name,
        Delivers (Receives held limit serve held.connection.healthRequest) document ∧
          Reports document name ∧ status = ServingStatus.ofName name := by
  unfold Connection.check
  rw [send_eq_ok_iff]
  simp only [readHealth_eq_ok_iff, healthReport?_eq_some_iff, Http.isSuccess_iff]
  constructor
  · rintro ⟨response, receives, success, document, name, isDocument, reports, isStatus⟩
    exact ⟨document, name, ⟨response, receives, success, isDocument⟩, reports, isStatus⟩
  · rintro ⟨document, name, ⟨response, receives, success, isDocument⟩, reports, isStatus⟩
    exact ⟨response, receives, success, document, name, isDocument, reports, isStatus⟩

theorem blames_of_check_eq_error {error : Error}
    (isError : (Connection.check held limit serve).result = .error error) :
    Blames held.connection.name error := by
  cases isClosed : held.isClosed with
  | true =>
      unfold Connection.check at isError
      rw [Connection.send_of_isClosed isClosed] at isError
      obtain rfl := Except.error.inj isError
      exact .closed
  | false =>
      rcases send_eq_error isClosed isError with unmade | ⟨reason, rfl⟩ | ⟨response, refused⟩
      · rcases request_eq_error unmade with ⟨reason, rfl⟩ | ⟨reason, rfl⟩
        · exact .callFailed Connection.healthPath reason
        · exact .probeFailed reason
      · exact .probeFailed reason
      · obtain ⟨reason, rfl⟩ := readHealth_eq_error refused
        exact .probeFailed reason

theorem check_probed :
    Probed held (Receives held limit serve held.connection.healthRequest)
      (Connection.check held limit serve) where
  serving := by
    rw [check_eq_ok_iff]
    constructor
    · rintro ⟨document, name, delivers, reports, isServing⟩
      obtain rfl := ofName_eq_serving_iff.mp isServing.symm
      exact ⟨document, delivers, reports⟩
    · rintro ⟨document, delivers, reports⟩
      exact ⟨document, "SERVING", delivers, reports, rfl⟩
  notServing := by
    rw [check_eq_ok_iff]
    constructor
    · rintro ⟨document, name, delivers, reports, isNotServing⟩
      obtain rfl := ofName_eq_notServing_iff.mp isNotServing.symm
      exact ⟨document, delivers, reports⟩
    · rintro ⟨document, delivers, reports⟩
      exact ⟨document, "NOT_SERVING", delivers, reports, rfl⟩
  unknown := by
    simp only [check_eq_ok_iff, eq_comm (a := ServingStatus.unknown), ofName_eq_unknown_iff]
  blames error isError := blames_of_check_eq_error held limit serve isError
  closed isClosed := by
    unfold Connection.check
    rw [Connection.send_of_isClosed isClosed]
    exact ⟨rfl, rfl⟩
  atMostOne := length_sent_send_le_one

/-! ### Calls -/

/-- A call succeeds with what a response of success holds, and otherwise fails. -/
structure Called
    {α : Type}
    (held : Held Connection)
    (operation : Operation α)
    (receives : Http.Response → Prop)
    (use : Use α) : Prop where
  succeeds :
    ∀ result, use.result = .ok result ↔
      ∃ document value, Delivers receives document ∧ document.toValue? = some value ∧
        operation.decode value.toDocument = .ok result
  fails :
    held.isClosed = false →
      ∀ error, use.result = .error error →
        ∃ reason, error = .callFailed held.connection.name operation.method reason
  refused :
    ∀ response text, receives response →
      ¬ (200 ≤ response.status ∧ response.status < 300) →
      response.text? = some text →
        use.result =
          .error (.callFailed held.connection.name operation.method
            (Http.statusText response.status ++ ": " ++ text))
  refusedUnread :
    ∀ response, receives response →
      ¬ (200 ≤ response.status ∧ response.status < 300) →
      response.body = none →
        use.result =
          .error (.callFailed held.connection.name operation.method
            (Http.statusText response.status ++ ": "))
  closed :
    held.isClosed = true →
      use.sent = [] ∧ use.result = .error (.closed held.connection.name)
  atMostOne : use.sent.length ≤ 1

section Calls

variable {α : Type} (operation : Operation α)

theorem run_eq_ok_iff {result : α} :
    (operation.run held limit serve).result = .ok result ↔
      ∃ document value,
        Delivers (Receives held limit serve
            (held.connection.callRequest operation.method operation.payload)) document ∧
          document.toValue? = some value ∧ operation.decode value.toDocument = .ok result := by
  unfold Operation.run Connection.call
  simp only [conclude_eq_ok_iff, send_eq_ok_iff, readReply_eq_ok_iff, reply?_eq_some_iff,
    Http.isSuccess_iff]
  constructor
  · rintro ⟨value, ⟨response, receives, success, document, isDocument, isValue⟩, decoded⟩
    exact ⟨document, value, ⟨response, receives, success, isDocument⟩, isValue, decoded⟩
  · rintro ⟨document, value, ⟨response, receives, success, isDocument⟩, isValue, decoded⟩
    exact ⟨value, ⟨response, receives, success, document, isDocument, isValue⟩, decoded⟩

/-- A response that is no success fails a call, whatever its body. -/
theorem run_refused
    {response : Http.Response}
    (receives : Receives held limit serve
      (held.connection.callRequest operation.method operation.payload) response)
    (refused : ¬ (200 ≤ response.status ∧ response.status < 300)) :
    (operation.run held limit serve).result =
      .error (.callFailed held.connection.name operation.method
        (Http.statusText response.status ++ ": " ++ response.text?.getD "")) := by
  rw [← Http.isSuccess_iff, Bool.not_eq_true] at refused
  unfold Operation.run Connection.call
  simp only [send_of_receives receives, readReply_refused _ _ refused]
  rfl

/-- Whatever the connection, the operation and the server, a call succeeds with
what a response of success holds, and otherwise fails. -/
theorem run_called :
    Called held operation
      (Receives held limit serve
        (held.connection.callRequest operation.method operation.payload))
      (operation.run held limit serve) where
  succeeds _ := run_eq_ok_iff held limit serve operation
  fails isOpen error isError := by
    rcases conclude_eq_error operation isError with failed | failed
    · rcases send_eq_error isOpen failed with unmade | unanswered | ⟨response, refused⟩
      · rcases request_eq_error unmade with unresolved | unsendable
        · exact unresolved
        · exact unsendable
      · exact unanswered
      · exact readReply_eq_error refused
    · exact failed
  refused response text receives refused isText := by
    rw [run_refused held limit serve operation receives refused, isText, Option.getD_some]
  refusedUnread response receives refused unread := by
    have noText : response.text? = none := by rw [Http.Response.text?, unread]; rfl
    rw [run_refused held limit serve operation receives refused, noText, Option.getD_none,
      String.append_empty]
  closed isClosed := by
    unfold Operation.run Connection.call
    rw [Connection.send_of_isClosed isClosed]
    exact ⟨rfl, rfl⟩
  atMostOne := by
    unfold Operation.run Connection.call
    exact length_sent_send_le_one

end Calls

/-- Whatever the connection and the server, a probe and every call report
success on success alone. -/
theorem uses_succeed_on_success :
    Probed held (Receives held limit serve held.connection.healthRequest)
        (Connection.check held limit serve) ∧
      ∀ {α : Type} (operation : Operation α),
        Called held operation
          (Receives held limit serve
            (held.connection.callRequest operation.method operation.payload))
          (operation.run held limit serve) :=
  ⟨check_probed held limit serve, run_called held limit serve⟩

end Precis.Service

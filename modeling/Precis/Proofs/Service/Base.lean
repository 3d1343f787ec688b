import Precis.Proofs.Http.Exchange
import Precis.Service.Operation

/-!
Contract: the requests that a connection makes.

Owns that the address of a connection denotes a base URL with a host and a
directory, spoken to by HTTP; that the paths of the services are resolved to
files of that directory; that the requests of a connection can always be made;
and that one that was closed makes none.

Does not own what is done with a request.
-/

namespace Precis

namespace Service

open Http (AnswersWithin)
open Url (SpeaksHttp)

/-! ### Base URLs -/

/-- A URL of a directory that HTTP can reach. -/
structure IsBase (base : Url) : Prop where
  speaks : SpeaksHttp base.scheme
  host : base.hasHost = true
  directory : ∃ segments, base.path = .segments (segments ++ [""])

/-- The URL of a file in the directory of a base URL. -/
def fileOf (base : Url) (name : String) : Url :=
  { base with
    path := .segments ((base.path.nearest.drop 1).reverse ++ [name])
    query := none
    fragment := none }

theorem exists_segments_of_ofAuthorityText
    [Url.DomainCoding]
    {scheme : String}
    {text : List Char}
    {url : Url}
    (speaks : SpeaksHttp scheme)
    (read : Url.ofAuthorityText scheme text = .ok url) :
    ∃ segments, url.path = .segments segments := by
  unfold Url.ofAuthorityText at read
  simp only [speaks.special] at read
  split at read
  case h_1 => cases read
  case h_2 =>
    rw [← Except.ok.inj read]
    unfold Url.rootPath Url.resolvePath
    split
    case h_1 => exact ⟨[""], rfl⟩
    case h_2 => exact ⟨_, rfl⟩

/-- A text that begins with a scheme of HTTP is read as an authority and what follows it. -/
theorem exists_ofAuthorityText_of_parse
    [Url.DomainCoding]
    {text : String}
    {rest : List Char}
    {url : Url}
    (begins : text.toList = "http://".toList ++ rest ∨ text.toList = "https://".toList ++ rest)
    (parsed : Url.parse text = .ok url) :
    ∃ scheme authority, SpeaksHttp scheme ∧ Url.ofAuthorityText scheme authority = .ok url := by
  obtain ⟨scheme, after, speaks, parsed⟩ : ∃ scheme after, SpeaksHttp scheme ∧
      Url.ofSchemeText scheme after = .ok url := by
    have plain : Url.Plain "http://".toList ∧ Url.Plain "https://".toList :=
      ⟨Url.plain_of_all (by decide), Url.plain_of_all (by decide)⟩
    unfold Url.parse at parsed
    rcases begins with begins | begins
    · obtain ⟨counted, isCounted⟩ := Url.exists_cleaned_prepend plain.1 (by decide) rest
      rw [begins, isCounted] at parsed
      exact ⟨"http", _, .inl rfl, parsed⟩
    · obtain ⟨counted, isCounted⟩ := Url.exists_cleaned_prepend plain.2 (by decide) rest
      rw [begins, isCounted] at parsed
      exact ⟨"https", _, .inr rfl, parsed⟩
  rw [speaks.ofSchemeText_eq] at parsed
  exact ⟨scheme, _, speaks, parsed⟩

theorem toList_of_beginsWith {text beginning : String} (begins : beginsWith text beginning = true) :
    ∃ rest, text.toList = beginning.toList ++ rest := by
  obtain ⟨rest, whole⟩ := List.isPrefixOf_iff_prefix.mp begins
  exact ⟨rest, whole.symm⟩

theorem addressUrlText_begins (address : String) :
    ∃ rest, (addressUrlText address).toList = "http://".toList ++ rest ∨
      (addressUrlText address).toList = "https://".toList ++ rest := by
  unfold addressUrlText
  split
  case isTrue begins =>
    rcases Bool.or_eq_true_iff.mp begins with http | https
    · obtain ⟨rest, whole⟩ := toList_of_beginsWith http
      exact ⟨rest, .inl whole⟩
    · obtain ⟨rest, whole⟩ := toList_of_beginsWith https
      exact ⟨rest, .inr whole⟩
  case isFalse =>
    split
    case isTrue =>
      refine ⟨"127.0.0.1".toList ++ address.toList, .inl ?_⟩
      rw [String.toList_append]
      rfl
    case isFalse => exact ⟨address.toList, .inl String.toList_append⟩

theorem baseUrl_eq_ok_iff [Url.DomainCoding] {address : String} {base : Url} :
    baseUrl address = .ok base ↔
      Text.trim address ≠ "" ∧
        ∃ url, Url.parse (addressUrlText (Text.trim address)) = .ok url ∧ url.hasHost = true ∧
          url.withFinalSlash = base := by
  unfold baseUrl
  simp only
  split
  case isTrue empty => simp [empty]
  case isFalse someText =>
    cases Url.parse (addressUrlText (Text.trim address)) with
    | error cause => simp
    | ok url =>
        simp only [Except.ok.injEq, exists_eq_left']
        cases url.hasHost with
        | false => simp
        | true => simp [someText]

/-- Every address that denotes a base URL denotes one that can be used. -/
theorem isBase_of_baseUrl
    [Url.DomainCoding]
    {address : String}
    {base : Url}
    (denotes : baseUrl address = .ok base) :
    IsBase base := by
  obtain ⟨-, url, parsed, host, rfl⟩ := baseUrl_eq_ok_iff.mp denotes
  obtain ⟨rest, begins⟩ := addressUrlText_begins (Text.trim address)
  obtain ⟨scheme, authority, speaks, read⟩ := exists_ofAuthorityText_of_parse begins parsed
  obtain rfl := Url.scheme_of_ofAuthorityText read
  obtain ⟨segments, isPath⟩ := exists_segments_of_ofAuthorityText speaks read
  rw [Url.withFinalSlash, isPath]
  simp only
  split
  case isTrue last =>
    obtain ⟨front, whole⟩ := List.getLast?_eq_some_iff.mp last
    exact ⟨speaks, host, front, by rw [isPath, whole]⟩
  case isFalse => exact ⟨speaks, host, segments, rfl⟩

/-! ### Paths of the services -/

/-- The paths that the services answer at. -/
def servicePaths : List String :=
  [Connection.healthPath, "summarize", "create_task", "create_if_not_exist"]

/-- Each path is one segment, which no rule of URLs changes. -/
theorem servicePaths_plain :
    ∀ name ∈ servicePaths,
      Url.cleaned name.toList = name.toList ∧ Url.splitScheme? name.toList = none ∧
        name.toList.takeWhile (Url.isSlash true) = [] ∧
        Url.splitAt (Url.isSlash true) name.toList = [name.toList] ∧
        (name.toList.takeWhile fun character => !Url.endsPath character) = name.toList ∧
        (name.toList.dropWhile fun character => !Url.endsPath character) = [] ∧
        Url.isDoubleDot name.toList = false ∧ Url.isSingleDot name.toList = false ∧
        Url.encode Url.pathSet name.toList = name.toList ∧ name.toList ≠ [] := by
  decide

theorem IsBase.join_eq
    [Url.DomainCoding]
    {base : Url}
    {name : String}
    (isBase : IsBase base)
    (known : name ∈ servicePaths) :
    base.join name = .ok (fileOf base name) := by
  obtain ⟨counts, noScheme, noSlash, oneSegment, all, noMark, noDoubleDot, noSingleDot,
    unencoded, notEmpty⟩ := servicePaths_plain name known
  obtain ⟨segments, isPath⟩ := isBase.directory
  have tail : Url.splitTail name.toList = ⟨name.toList, none, none⟩ := by
    simp only [Url.splitTail, all, noMark]
  have followed (directory : List String) :
      Url.follow directory [name.toList] = name :: directory := by
    simp only [Url.follow, noDoubleDot, noSingleDot, unencoded, String.ofList_toList,
      Bool.false_eq_true, if_false]
  have resolved : base.resolve name.toList = .ok (fileOf base name) := by
    have someText : name.toList.isEmpty = false := List.isEmpty_eq_false_iff.mpr notEmpty
    unfold Url.resolve
    simp only [isBase.speaks.special, noSlash, tail, someText, Url.resolvePath, oneSegment,
      followed, List.length_nil, Bool.false_eq_true, if_false, List.reverse_cons]
    rfl
  simp only [Url.join, counts, noScheme, isPath, resolved]

/-! ### Requests of a connection -/

section Requests

variable [Url.DomainCoding] {name address : String} {connection : Connection}
  (connected : Connection.connect name address = .ok connection)

include connected

theorem baseUrl_of_connect : baseUrl address = .ok connection.base := by
  unfold Connection.connect at connected
  split at connected
  case h_1 => cases connected
  case h_2 base denotes =>
    obtain rfl := Except.ok.inj connected
    exact denotes

theorem request_eq_ok
    {path : String}
    {headers : List (String × String)}
    (failed : String → Error)
    (method : Http.Method)
    (body : Option Json.Value)
    (known : path ∈ servicePaths)
    (sendable : (headers.all fun header => Http.isHeaderValue header.2) = true) :
    connection.request failed method path headers body =
      .ok { method, url := fileOf connection.base path, headers, body } := by
  have isBase := isBase_of_baseUrl (baseUrl_of_connect connected)
  have made : Http.Request.make method (fileOf connection.base path) headers body =
      .ok { method, url := fileOf connection.base path, headers, body } :=
    Http.Request.make_eq_ok_iff.mpr ⟨isBase.host, sendable, isBase.speaks, rfl⟩
  simp only [Connection.request, isBase.join_eq known, made]

end Requests

/-! ### What comes of a request -/

theorem readReply_eq_ok_iff
    {connection : Connection}
    {method : String}
    {response : Http.Response}
    {value : Json.Value} :
    connection.readReply method response = .ok value ↔
      Http.isSuccess response.status = true ∧ Connection.reply? response = some value := by
  unfold Connection.readReply
  cases Http.isSuccess response.status with
  | false => simp
  | true => cases Connection.reply? response <;> simp

theorem readHealth_eq_ok_iff
    {connection : Connection}
    {response : Http.Response}
    {status : ServingStatus} :
    connection.readHealth response = .ok status ↔
      Http.isSuccess response.status = true ∧
        Connection.healthReport? response = some { status } := by
  unfold Connection.readHealth
  cases Http.isSuccess response.status with
  | false => simp
  | true =>
      cases Connection.healthReport? response with
      | none => simp
      | some report => obtain ⟨found⟩ := report; simp

theorem conclude_eq_ok_iff
    {α : Type}
    {operation : Operation α}
    {service : String}
    {reply : Except Error Json.Value}
    {result : α} :
    operation.conclude service reply = .ok result ↔
      ∃ value, reply = .ok value ∧ operation.decode value.toDocument = .ok result := by
  cases reply with
  | error failure => simp [Operation.conclude]
  | ok value =>
      simp only [Operation.conclude, Except.ok.injEq, exists_eq_left']
      cases operation.decode value.toDocument <;> simp

theorem Connection.send_of_isClosed
    {α : Type}
    {held : Held Connection}
    (closed : held.isClosed = true)
    (limit : Duration)
    (serve : Http.Request → Option Http.Handling)
    (request : Except Error Http.Request)
    (failed : String → Error)
    (read : Http.Response → Except Error α) :
    Connection.send held limit serve request failed read =
      .refused (.closed held.connection.name) := by
  unfold Connection.send
  exact if_pos closed

theorem send_result_eq_ok_iff
    {α : Type}
    {connection : Connection}
    {limit : Duration}
    {serve : Http.Request → Option Http.Handling}
    {request : Http.Request}
    {failed : String → Error}
    {read : Http.Response → Except Error α}
    {result : α} :
    (Connection.send (.opened connection) limit serve (.ok request) failed read).result =
        .ok result ↔
      ∃ response, AnswersWithin limit serve request response ∧ read response = .ok result := by
  have isOpen : (Held.opened connection).isClosed = false := rfl
  simp only [← Http.Handling.within_response_eq_some_iff, Connection.send, isOpen,
    Bool.false_eq_true, if_false]
  cases (Http.Handling.within limit.nanoseconds (serve request)).response with
  | none => simp
  | some response => simp

section Uses

variable [Url.DomainCoding] {name address : String} {connection : Connection}
  (connected : Connection.connect name address = .ok connection)
  (limit : Duration) (serve : Http.Request → Option Http.Handling)

/-- The request of a probe over a connection. -/
def probeOf (connection : Connection) : Http.Request :=
  { method := .get
    url := fileOf connection.base Connection.healthPath
    headers := []
    body := none }

/-- The request of an operation over a connection. -/
def callOf {α : Type} (connection : Connection) (operation : Operation α) : Http.Request :=
  { method := .post
    url := fileOf connection.base operation.method
    headers := [Http.jsonHeader]
    body := some operation.payload }

include connected

theorem healthRequest_eq_ok : connection.healthRequest = .ok (probeOf connection) :=
  request_eq_ok connected _ _ _ (by decide) rfl

theorem callRequest_eq_ok
    {α : Type}
    {operation : Operation α}
    (known : operation.method ∈ servicePaths) :
    connection.callRequest operation.method operation.payload =
      .ok (callOf connection operation) :=
  request_eq_ok connected _ _ _ known (by decide)

theorem sent_check :
    (Connection.check (.opened connection) limit serve).sent = [probeOf connection] := by
  show (Connection.send (.opened connection) limit serve connection.healthRequest _ _).sent = _
  rw [healthRequest_eq_ok connected]
  rfl

theorem check_result_eq_ok_iff {status : ServingStatus} :
    (Connection.check (.opened connection) limit serve).result = .ok status ↔
      ∃ response, AnswersWithin limit serve (probeOf connection) response ∧
        Http.isSuccess response.status = true ∧
        Connection.healthReport? response = some { status } := by
  show (Connection.send (.opened connection) limit serve connection.healthRequest _ _).result = _ ↔
    _
  rw [healthRequest_eq_ok connected, send_result_eq_ok_iff]
  simp only [readHealth_eq_ok_iff]

theorem check_delay_of_answered
    {delay : Nat}
    {response : Option Http.Response}
    (answered : serve (probeOf connection) = some { delay, response })
    (inTime : delay ≤ limit.nanoseconds) :
    (Connection.check (.opened connection) limit serve).delay = delay := by
  show (Connection.send (.opened connection) limit serve connection.healthRequest _ _).delay = _
  rw [healthRequest_eq_ok connected]
  show (Http.Handling.within limit.nanoseconds (serve (probeOf connection))).delay = delay
  rw [answered, Http.Handling.within, if_neg (Nat.not_lt.mpr inTime)]

theorem sent_run {α : Type} (operation : Operation α) (known : operation.method ∈ servicePaths) :
    (operation.run (.opened connection) limit serve).sent = [callOf connection operation] := by
  show (Connection.send (.opened connection) limit serve
    (connection.callRequest operation.method operation.payload) (connection.callFailed _)
    (connection.readReply _)).sent = _
  rw [callRequest_eq_ok connected known]
  rfl

theorem run_result_eq_ok_iff
    {α : Type}
    (operation : Operation α)
    (known : operation.method ∈ servicePaths)
    {result : α} :
    (operation.run (.opened connection) limit serve).result = .ok result ↔
      ∃ response, AnswersWithin limit serve (callOf connection operation) response ∧
        Http.isSuccess response.status = true ∧
        ∃ value, Connection.reply? response = some value ∧
          operation.decode value.toDocument = .ok result := by
  show operation.conclude connection.name (Connection.send (.opened connection) limit serve
    (connection.callRequest operation.method operation.payload) (connection.callFailed _)
    (connection.readReply _)).result = _ ↔ _
  rw [callRequest_eq_ok connected known, conclude_eq_ok_iff]
  simp only [send_result_eq_ok_iff, readReply_eq_ok_iff]
  constructor
  · rintro ⟨value, ⟨response, answers, success, isValue⟩, decoded⟩
    exact ⟨response, answers, success, value, isValue, decoded⟩
  · rintro ⟨response, answers, success, value, isValue, decoded⟩
    exact ⟨value, ⟨response, answers, success, isValue⟩, decoded⟩

end Uses

end Service

end Precis

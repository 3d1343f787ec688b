import Precis.Http.Status
import Precis.Json.Writer
import Precis.Text.Charset
import Precis.Url.Parse

/-!
Contract: one request over HTTP and what comes of it.

This module owns requests and responses, which requests can be made at all,
what a server does with a request in the course of time, and the time limit
that a client puts on it. A response whose body broke off has no body. A server
may base what it does on everything it was asked before.
-/

namespace Precis.Http

inductive Method where
  | get
  | post
deriving DecidableEq, Repr

def Method.name : Method → String
  | .get => "GET"
  | .post => "POST"

structure Request where
  method : Method
  url : Url
  headers : List (String × String)
  body : Option Json.Value

/-- A response. The body is `none` where it cannot be read to its end. -/
structure Response where
  status : Nat
  headers : List (String × String)
  body : Option (List UInt8)

/-- What a server does with a request: the nanoseconds that it takes, and the
response, or `none` where the connection ends without one. -/
structure Handling where
  delay : Nat
  response : Option Response

/-- A request and the moment at which it was sent, in nanoseconds. -/
structure Sent where
  moment : Nat
  request : Request

/-- What a server does with each request, given all requests before it, newest
first. `none` means that nothing ever happens. -/
abbrev Server := (earlier : List Request) → Request → Option Handling

/-- What a client with a time limit sees of a server: a response that takes
longer than the limit is none. -/
def Handling.within (limit : Nat) : Option Handling → Handling
  | none => { delay := limit, response := none }
  | some handling =>
      if limit < handling.delay then { delay := limit, response := none } else handling

inductive Error where
  | notMade (url : Option Url)
  | notAnswered (url : Url)
  | notReadable
deriving DecidableEq, Repr

/-- The wording of each cause. A user name and a password are not shown. -/
def Error.message : Error → String
  | .notMade none => "builder error"
  | .notMade (some url) => "builder error for url (" ++ url.withoutCredentials.text ++ ")"
  | .notAnswered url =>
      "error sending request for url (" ++ url.withoutCredentials.text ++ ")"
  | .notReadable => "error decoding response body"

/-- Whether a text can be the value of a header: no controls but tabs. -/
def isHeaderValue (value : String) : Bool :=
  value.toList.all fun character =>
    character == '\t' || (decide (0x20 ≤ character.toNat) && character != '\x7f')

/-- A request, if one can be made: it needs a host, headers that can be sent,
and a scheme that says HTTP. -/
def Request.make
    (method : Method)
    (url : Url)
    (headers : List (String × String))
    (body : Option Json.Value) : Except Error Request :=
  if !url.hasHost then .error (.notMade (some url))
  else if !headers.all fun header => isHeaderValue header.2 then .error (.notMade none)
  else if url.scheme ≠ "http" ∧ url.scheme ≠ "https" then .error (.notMade (some url))
  else .ok { method, url, headers, body }

def jsonHeader : String × String := ("content-type", "application/json")

/-- The value of the first header of a name, whatever the case of its letters. -/
def header? (name : String) (headers : List (String × String)) : Option String :=
  (headers.find? fun header => header.1.map Char.toLower = name.map Char.toLower).map Prod.snd

/-- The value of the first header of a name, if it is visible text. -/
def visibleHeader? (name : String) (headers : List (String × String)) : Option String :=
  (header? name headers).filter fun value =>
    value.toList.all fun character =>
      character == '\t' || (decide (0x20 ≤ character.toNat) && decide (character.toNat < 0x7f))

/-- The text of a body, if it can be read, as its content type says it is written. -/
def Response.text? (response : Response) : Option String :=
  response.body.map
    (Text.Charset.ofContentType (visibleHeader? "content-type" response.headers)).decode

end Precis.Http

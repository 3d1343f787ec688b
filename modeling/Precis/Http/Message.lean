import Precis.Http.Exchange
import Precis.Json.Writer

/-!
Contract: messages on a connection.

This module owns how a request is written in bytes, and how a response is read
from the bytes that have arrived so far. A response is a head of lines and a
body. The head says where the body ends: after a number of bytes, at an empty
chunk, or with the connection. A response whose body broke off is one that
cannot be read; one whose head broke off is none. Heads that only announce the
response are passed over. A connection carries one request.
-/

namespace Precis.Http

/-! ### Requests -/

def base64Digits : List Char :=
  "ABCDEFGHIJKLMNOPQRSTUVWXYZabcdefghijklmnopqrstuvwxyz0123456789+/".toList

def base64Digit (value : Nat) : Char :=
  base64Digits.getD value '='

/-- Bytes in base sixty-four: four digits for three bytes, the last of them filled up. -/
def base64 : List UInt8 → List Char
  | [] => []
  | [first] =>
      [base64Digit (first.toNat / 4), base64Digit (first.toNat % 4 * 16), '=', '=']
  | [first, second] =>
      [base64Digit (first.toNat / 4), base64Digit (first.toNat % 4 * 16 + second.toNat / 16),
        base64Digit (second.toNat % 16 * 4), '=']
  | first :: second :: third :: rest =>
      base64Digit (first.toNat / 4) ::
        base64Digit (first.toNat % 4 * 16 + second.toNat / 16) ::
        base64Digit (second.toNat % 16 * 4 + third.toNat / 64) ::
        base64Digit (third.toNat % 64) :: base64 rest

def textBytes (text : String) : List UInt8 :=
  Text.Utf8.encode text.toList

def hostHeader (url : Url) : String × String :=
  let name := (url.host.map Url.Host.text).getD ""
  match url.port with
  | some port => ("host", name ++ ":" ++ toString port)
  | none => ("host", name)

def credentialsHeaders (url : Url) : List (String × String) :=
  if url.credentialsText = "" then []
  else
    let decoded (text : String) : List UInt8 := Url.decodeBytes (textBytes text)
    let credentials := decoded url.username ++ [0x3a] ++ decoded (url.password.getD "")
    [("authorization", "Basic " ++ String.ofList (base64 credentials))]

def Request.bytes (request : Request) : List UInt8 :=
  let body := (request.body.map fun body => textBytes body.text).getD []
  let length :=
    match request.body with
    | some _ => [("content-length", toString body.length)]
    | none => []
  let headers :=
    request.headers ++ credentialsHeaders request.url ++ [("accept", "*/*"),
      hostHeader request.url] ++ length ++ [("connection", "close")]
  let first := request.method.name ++ " " ++ request.url.target ++ " HTTP/1.1\r\n"
  let lines := headers.map fun header => header.1 ++ ": " ++ header.2 ++ "\r\n"
  textBytes (first ++ String.join lines ++ "\r\n") ++ body

/-! ### Responses -/

/-- What has arrived of something: all of it, or not all of it yet. It may also
have turned out that it is not well-formed. -/
inductive Arrival (α : Type) where
  | complete (value : α)
  | incomplete
  | malformed
deriving DecidableEq, Repr

/-- A line without its end, and the bytes after it, if all of the line has arrived. -/
def takeLine? : List UInt8 → Option (List Char × List UInt8)
  | [] => none
  | 0x0a :: rest => some ([], rest)
  | 0x0d :: 0x0a :: rest => some ([], rest)
  | byte :: rest =>
      (takeLine? rest).map fun line => (Char.ofNat byte.toNat :: line.1, line.2)

theorem length_lt_of_takeLine? {bytes : List UInt8} {line : List Char × List UInt8}
    (taken : takeLine? bytes = some line) : line.2.length < bytes.length := by
  fun_induction takeLine? bytes generalizing line with
  | case1 => cases taken
  | case2 rest => cases taken; exact Nat.lt_succ_self _
  | case3 rest => cases taken; exact Nat.lt_succ_of_lt (Nat.lt_succ_self _)
  | case4 byte rest _ _ inductionHypothesis =>
      obtain ⟨found, isFound, isLine⟩ := Option.map_eq_some_iff.1 taken
      have shorter := inductionHypothesis isFound
      subst isLine
      exact Nat.lt_succ_of_lt shorter

/-- The lines before the first empty one, and the bytes after that, if it has arrived. -/
def takeHead? (bytes : List UInt8) : Option (List (List Char) × List UInt8) :=
  match _ : takeLine? bytes with
  | none => none
  | some ([], rest) => some ([], rest)
  | some (line, rest) => (takeHead? rest).map fun head => (line :: head.1, head.2)
termination_by bytes.length
decreasing_by exact length_lt_of_takeLine? (by assumption)

theorem length_lt_of_takeHead? {bytes : List UInt8} {head : List (List Char) × List UInt8}
    (taken : takeHead? bytes = some head) : head.2.length < bytes.length := by
  fun_induction takeHead? bytes generalizing head with
  | case1 => simp at taken
  | case2 bytes rest found =>
      simp at taken
      subst taken
      exact length_lt_of_takeLine? found
  | case3 bytes line rest _ found inductionHypothesis =>
      obtain ⟨inner, isInner, isHead⟩ := Option.map_eq_some_iff.1 taken
      have shorter := inductionHypothesis isInner
      subst isHead
      exact Nat.lt_trans shorter (length_lt_of_takeLine? found)

def statusOfLine? (line : List Char) : Option Nat :=
  match Url.splitAt (· == ' ') line with
  | version :: code :: _ =>
      if "HTTP/1.".toList.isPrefixOf version ∧ code.length = 3 then Url.digitsValue? 10 code
      else none
  | _ => none

/-- A text without spaces and tabs around it. -/
def trimmed (text : List Char) : List Char :=
  let isPadding (character : Char) : Bool := character == ' ' || character == '\t'
  ((text.dropWhile isPadding).reverse.dropWhile isPadding).reverse

def headerOfLine? (line : List Char) : Option (String × String) :=
  match line.span (· != ':') with
  | (name, ':' :: value) => some (String.ofList name, String.ofList (trimmed value))
  | _ => none

inductive Extent where
  | bytes (count : Nat)
  | emptyChunk
  | connection
deriving DecidableEq, Repr

def extent? (status : Nat) (headers : List (String × String)) : Option Extent :=
  if status = 204 ∨ status = 304 then some (.bytes 0)
  else
    match header? "transfer-encoding" headers, header? "content-length" headers with
    | some coding, _ => if coding.map Char.toLower = "chunked" then some .emptyChunk else none
    | none, some length =>
        if length = "" then none else (Url.digitsValue? 10 length.toList).map .bytes
    | none, none => some .connection

def chunkSize? (line : List Char) : Option Nat :=
  let digits := trimmed (line.takeWhile (· != ';'))
  if digits.isEmpty then none else Url.digitsValue? 16 digits

/-- A body in chunks: each is a line with its size, its bytes, and the end of a
line. After the empty chunk comes one more head. -/
def readChunks (bytes : List UInt8) : Arrival (List UInt8) :=
  match outer : takeLine? bytes with
  | none => .incomplete
  | some (line, rest) =>
      match chunkSize? line with
      | none => .malformed
      | some 0 => if (takeHead? rest).isSome then .complete [] else .incomplete
      | some size =>
          match inner : takeLine? (rest.drop size) with
          | none => .incomplete
          | some ([], more) =>
              match readChunks more with
              | .complete body => .complete (rest.take size ++ body)
              | other => other
          | some _ => .malformed
termination_by bytes.length
decreasing_by
  have fromInner := length_lt_of_takeLine? inner
  have fromOuter := length_lt_of_takeLine? outer
  simp only [List.length_drop] at fromInner fromOuter
  omega

/-- What has arrived of a body. `ended` says that nothing more will arrive. -/
def readBody (extent : Extent) (ended : Bool) (bytes : List UInt8) : Arrival (List UInt8) :=
  match extent with
  | .bytes count => if count ≤ bytes.length then .complete (bytes.take count) else .incomplete
  | .emptyChunk => readChunks bytes
  | .connection => if ended then .complete bytes else .incomplete

def readResponse
    (ended : Bool)
    (status : Nat)
    (headers : List (String × String))
    (bytes : List UInt8) : Arrival Response :=
  match extent? status headers with
  | none => .malformed
  | some extent =>
      match readBody extent ended bytes with
      | .complete body => .complete { status, headers, body := some body }
      | .malformed => .complete { status, headers, body := none }
      | .incomplete =>
          if ended then .complete { status, headers, body := none } else .incomplete

/-- What has arrived of a response. `ended` says that nothing more will arrive. -/
def Response.read (ended : Bool) (bytes : List UInt8) : Arrival Response :=
  match _ : takeHead? bytes with
  | none => if ended then .malformed else .incomplete
  | some ([], _) => .malformed
  | some (first :: lines, rest) =>
      match statusOfLine? first, lines.mapM headerOfLine? with
      | some status, some headers =>
          if 100 ≤ status ∧ status < 200 ∧ status ≠ 101 then Response.read ended rest
          else readResponse ended status headers rest
      | _, _ => .malformed
termination_by bytes.length
decreasing_by exact length_lt_of_takeHead? (by assumption)

end Precis.Http

import Precis.Url.Host

/-!
Contract: the parts of a URL.

This module owns the parts that a URL is made of, already encoded, the text
that they make, and the two parts of it that a request needs: where to connect
to, and what to ask for there.
-/

namespace Precis

namespace Url

/-- A path: segments between slashes, or one text that is not divided. -/
inductive Path where
  | segments (segments : List String)
  | undivided (text : String)
deriving DecidableEq, Repr

def Path.text : Path → String
  | .segments parts => String.join (parts.map fun part => "/" ++ part)
  | .undivided whole => whole

end Url

/-- A URL. The host is `none` where there is no authority; the user name is
empty where none is given. -/
structure Url where
  scheme : String
  username : String
  password : Option String
  host : Option Url.Host
  port : Option Nat
  path : Url.Path
  query : Option String
  fragment : Option String
deriving DecidableEq, Repr

namespace Url

def defaultPort? (scheme : String) : Option Nat :=
  if scheme = "http" ∨ scheme = "ws" then some 80
  else if scheme = "https" ∨ scheme = "wss" then some 443
  else if scheme = "ftp" then some 21
  else none

/-- Whether a scheme has hosts and paths of its own rules. -/
def isSpecial (scheme : String) : Bool :=
  ["http", "https", "ws", "wss", "ftp", "file"].contains scheme

def credentialsText (url : Url) : String :=
  match url.password with
  | some password => url.username ++ ":" ++ password ++ "@"
  | none => if url.username = "" then "" else url.username ++ "@"

/-- Everything between the scheme and the path. -/
def authorityText (url : Url) : String :=
  match url.host with
  | none =>
      match url.path with
      | .segments ("" :: _ :: _) => "/."
      | _ => ""
  | some host =>
      "//" ++ url.credentialsText ++ host.text ++
        (match url.port with
          | some port => ":" ++ toString port
          | none => "")

def markedText (mark : String) : Option String → String
  | some text => mark ++ text
  | none => ""

def text (url : Url) : String :=
  url.scheme ++ ":" ++ url.authorityText ++ url.path.text ++ markedText "?" url.query ++
    markedText "#" url.fragment

/-- What is asked for at the host: the path and the query. -/
def target (url : Url) : String :=
  url.path.text ++ markedText "?" url.query

def hasHost (url : Url) : Bool :=
  match url.host with
  | some host => host.text != ""
  | none => false

def withoutCredentials (url : Url) : Url :=
  { url with username := "", password := none }

def withFinalSlash (url : Url) : Url :=
  match url.path with
  | .segments segments =>
      if segments.getLast? = some "" then url
      else { url with path := .segments (segments ++ [""]) }
  | .undivided _ => url

end Url

end Precis

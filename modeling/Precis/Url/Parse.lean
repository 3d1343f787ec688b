import Precis.Url.Basic

/-!
Contract: from a text to a URL.

This module owns the reading of a URL and the resolving of a reference against
one. A text is first freed of controls and spaces at its ends and of tabs and
line breaks anywhere. It is then cut at its marks: the scheme before the first
colon, the authority up to the path, the query after a question mark, the
fragment after a number sign. Under a scheme with rules of its own a backslash
counts as a slash, and the authority follows any number of slashes. Segments of
one dot vanish and segments of two dots take the segment before them away; the
dots may be written with percent signs.
-/

namespace Precis.Url

variable [DomainCoding]

def isEdge (character : Char) : Bool :=
  decide (character.toNat ≤ 0x20)

def isSkipped (character : Char) : Bool :=
  character == '\t' || character == '\n' || character == '\r'

/-- The characters of a text that count. -/
def cleaned (text : List Char) : List Char :=
  (((text.dropWhile isEdge).reverse.dropWhile isEdge).reverse).filter fun character =>
    !isSkipped character

def isSchemeChar (character : Char) : Bool :=
  character.isAlphanum || character == '+' || character == '-' || character == '.'

/-- The scheme of a text and everything after its colon. -/
def splitScheme? (text : List Char) : Option (String × List Char) :=
  match text with
  | first :: _ =>
      let scheme := text.takeWhile isSchemeChar
      match first.isAlpha, text.dropWhile isSchemeChar with
      | true, ':' :: rest => some (String.ofList (scheme.map Char.toLower), rest)
      | _, _ => none
  | [] => none

def isSlash (special : Bool) (character : Char) : Bool :=
  character == '/' || (special && character == '\\')

def endsAuthority (special : Bool) (character : Char) : Bool :=
  isSlash special character || character == '?' || character == '#'

def endsPath (character : Char) : Bool :=
  character == '?' || character == '#'

/-- The texts before and after the last at sign. -/
def splitLastAt (text : List Char) : Option (List Char × List Char) :=
  match text.reverse.dropWhile (· != '@') with
  | _ :: before => some (before.reverse, (text.reverse.takeWhile (· != '@')).reverse)
  | [] => none

def parseCredentials (text : List Char) : String × Option String :=
  let name := text.takeWhile (· != ':')
  let password := (text.dropWhile (· != ':')).drop 1
  (String.ofList (encode userinfoSet name),
    if password.isEmpty then none else some (String.ofList (encode userinfoSet password)))

/-- The host part of an authority without credentials, and what follows it. A
colon inside brackets is part of the host. -/
def splitHost : (inBrackets : Bool) → List Char → List Char × List Char
  | _, [] => ([], [])
  | inBrackets, character :: rest =>
      if character = ':' ∧ inBrackets = false then ([], character :: rest)
      else
        let inside :=
          if character = '[' then true else if character = ']' then false else inBrackets
        let split := splitHost inside rest
        (character :: split.1, split.2)

/-- A port: digits, the value below 65536. No digits at all are no port. -/
def parsePort (scheme : String) (text : List Char) : Except ParseError (Option Nat) :=
  if text.isEmpty then .ok none
  else
    match digitsValue? 10 text with
    | some port =>
        if 65535 < port then .error .invalidPort
        else if defaultPort? scheme = some port then .ok none
        else .ok (some port)
    | none => .error .invalidPort

structure Authority where
  username : String
  password : Option String
  host : Host
  port : Option Nat

def parseAuthority (scheme : String) (text : List Char) : Except ParseError Authority :=
  let special := isSpecial scheme
  let (credentials, place) :=
    match splitLastAt text with
    | some (before, after) => (parseCredentials before, after)
    | none => (("", none), text)
  let (hostText, portText) := splitHost false place
  if hostText.isEmpty ∧ (special ∨ !portText.isEmpty ∨ place.length < text.length) then
    .error .emptyHost
  else
    match (if special then Host.parse hostText else Host.parseOpaque hostText) with
    | .error cause => .error cause
    | .ok host =>
        match parsePort scheme (portText.drop 1) with
        | .error cause => .error cause
        | .ok port =>
            .ok { username := credentials.1, password := credentials.2, host, port }

def isSingleDot (segment : List Char) : Bool :=
  [".", "%2e"].contains (String.ofList (segment.map Char.toLower))

def isDoubleDot (segment : List Char) : Bool :=
  ["..", ".%2e", "%2e.", "%2e%2e"].contains (String.ofList (segment.map Char.toLower))

/-- Follows segments from a directory, whose segments are given nearest first.
The last segment is the file. -/
def follow : (directory : List String) → (segments : List (List Char)) → List String
  | directory, [] => directory
  | directory, [last] =>
      if isDoubleDot last then "" :: directory.drop 1
      else if isSingleDot last then "" :: directory
      else String.ofList (encode pathSet last) :: directory
  | directory, segment :: rest =>
      if isDoubleDot segment then follow (directory.drop 1) rest
      else if isSingleDot segment then follow directory rest
      else follow (String.ofList (encode pathSet segment) :: directory) rest

def resolvePath (special : Bool) (directory : List String) (text : List Char) : Path :=
  .segments (follow directory (splitAt (isSlash special) text)).reverse

structure Tail where
  path : List Char
  query : Option (List Char)
  fragment : Option (List Char)

/-- Cuts a text at its first number sign, and before it at its first question mark. -/
def splitTail (text : List Char) : Tail :=
  let path := text.takeWhile fun character => !endsPath character
  match text.dropWhile fun character => !endsPath character with
  | '?' :: rest =>
      let query := rest.takeWhile (· != '#')
      match rest.dropWhile (· != '#') with
      | _ :: fragment => { path, query := some query, fragment := some fragment }
      | [] => { path, query := some query, fragment := none }
  | _ :: fragment => { path, query := none, fragment := some fragment }
  | [] => { path, query := none, fragment := none }

def queryText (special : Bool) (query : Option (List Char)) : Option String :=
  query.map fun characters =>
    String.ofList (encode (if special then specialQuerySet else querySet) characters)

def fragmentText (fragment : Option (List Char)) : Option String :=
  fragment.map fun characters => String.ofList (encode fragmentSet characters)

def rootPath (special : Bool) (text : List Char) : Path :=
  match text with
  | [] => if special then .segments [""] else .segments []
  | first :: rest =>
      resolvePath special [] (if isSlash special first then rest else first :: rest)

/-- The URL of a scheme and the text after the slashes before its authority. -/
def ofAuthorityText (scheme : String) (text : List Char) : Except ParseError Url :=
  let special := isSpecial scheme
  let authorityText := text.takeWhile fun character => !endsAuthority special character
  let tail := splitTail (text.dropWhile fun character => !endsAuthority special character)
  match parseAuthority scheme authorityText with
  | .error cause => .error cause
  | .ok authority =>
      .ok
        { scheme
          username := authority.username
          password := authority.password
          host := some authority.host
          port := authority.port
          path := rootPath special tail.path
          query := queryText special tail.query
          fragment := fragmentText tail.fragment }

/-- The URL of a file: a host may follow two slashes, and need not. -/
def ofFileText (text : List Char) : Except ParseError Url :=
  let isMark := isSlash true
  let (hostText, rest) :=
    match text with
    | first :: second :: rest =>
        if isMark first ∧ isMark second then
          (rest.takeWhile fun character => !endsAuthority true character,
            rest.dropWhile fun character => !endsAuthority true character)
        else ([], text)
    | other => ([], other)
  let tail := splitTail rest
  let host : Except ParseError Host :=
    if hostText.isEmpty then .ok (.opaqueName "")
    else
      (Host.parse hostText).map fun host =>
        if host = .domain "localhost" then .opaqueName "" else host
  host.map fun host =>
    { scheme := "file"
      username := ""
      password := none
      host := some host
      port := none
      path := rootPath true tail.path
      query := queryText true tail.query
      fragment := fragmentText tail.fragment }

def ofPlainText (scheme : String) (text : List Char) : Url :=
  let tail := splitTail text
  { scheme
    username := ""
    password := none
    host := none
    port := none
    path :=
      match tail.path with
      | '/' :: rest => resolvePath false [] rest
      | other => .undivided (String.ofList (encode controlSet other))
    query := queryText false tail.query
    fragment := fragmentText tail.fragment }

def ofSchemeText (scheme : String) (text : List Char) : Except ParseError Url :=
  if scheme = "file" then ofFileText text
  else if isSpecial scheme then ofAuthorityText scheme (text.dropWhile (isSlash true))
  else
    match text with
    | '/' :: '/' :: rest => ofAuthorityText scheme rest
    | other => .ok (ofPlainText scheme other)

/-- The URL of a text that stands on its own. -/
def parse (text : String) : Except ParseError Url :=
  match splitScheme? (cleaned text.toList) with
  | some (scheme, rest) => ofSchemeText scheme rest
  | none => .error .relativeWithoutBase

/-- The segments of a path, nearest first. -/
def Path.nearest : Path → List String
  | .segments parts => parts.reverse
  | .undivided _ => []

/-- Resolves a reference without a scheme against a URL with a divided path. -/
def resolve (base : Url) (text : List Char) : Except ParseError Url :=
  let special := isSpecial base.scheme
  let slashes := text.takeWhile (isSlash special)
  let tail := splitTail text
  let query := queryText special tail.query
  let fragment := fragmentText tail.fragment
  if 2 ≤ slashes.length then
    match text with
    | '/' :: '/' :: rest => ofAuthorityText base.scheme rest
    | other => ofAuthorityText base.scheme (other.drop slashes.length)
  else if slashes.length = 1 then
    .ok { base with path := resolvePath special [] (tail.path.drop 1), query, fragment }
  else if tail.path.isEmpty then
    .ok { base with query := if tail.query.isSome then query else base.query, fragment }
  else
    .ok
      { base with
        path := resolvePath special (base.path.nearest.drop 1) tail.path
        query
        fragment }

def join (base : Url) (reference : String) : Except ParseError Url :=
  let text := cleaned reference.toList
  match splitScheme? text with
  | some (scheme, rest) =>
      if scheme = base.scheme ∧ isSpecial scheme ∧ scheme ≠ "file" ∧
          (rest.takeWhile (isSlash true)).length < 2 then
        resolve base rest
      else ofSchemeText scheme rest
  | none =>
      match base.path with
      | .segments _ => resolve base text
      | .undivided _ =>
          match text with
          | '#' :: fragment => .ok { base with fragment := fragmentText (some fragment) }
          | _ => .error .relativeWithOpaqueBase

end Precis.Url

import Precis.Url.Domain
import Precis.Url.Percent

/-!
Contract: the host of a URL.

This module owns what may stand as a host and how it is written back. Under a
scheme with hosts of its own rules a host is an address in brackets, an address
of four bytes, or a domain: percent signs are decoded and what they leave is put
in ASCII by a coding of domains, which may refuse it. Under any other scheme a
host is kept as it stands.
-/

namespace Precis.Url

variable [DomainCoding]

inductive Host where
  | domain (name : String)
  | ipv4 (address : Nat)
  | ipv6 (groups : List Nat)
  | opaqueName (name : String)
deriving DecidableEq, Repr

def Host.text : Host → String
  | .domain name => name
  | .ipv4 address => ipv4Text address
  | .ipv6 groups => ipv6Text groups
  | .opaqueName name => name

/-- A host under a scheme with hosts of its own rules. -/
def Host.parse (text : List Char) : Except ParseError Host :=
  match text with
  | '[' :: rest =>
      if rest.getLast? = some ']' then
        match ipv6Groups? rest.dropLast with
        | some groups => .ok (.ipv6 groups)
        | none => .error .invalidIpv6
      else .error .invalidIpv6
  | other =>
      match (Text.Utf8.decode? (decodeBytes (Text.Utf8.encode other))).bind DomainCoding.ascii? with
      | none => .error .invalidDomain
      | some [] => .error .emptyHost
      | some ascii =>
          if endsInNumber ascii then (parseIpv4 ascii).map .ipv4
          else .ok (.domain (String.ofList ascii))

/-- A host under any other scheme. -/
def Host.parseOpaque (text : List Char) : Except ParseError Host :=
  match text with
  | '[' :: rest =>
      if rest.getLast? = some ']' then
        match ipv6Groups? rest.dropLast with
        | some groups => .ok (.ipv6 groups)
        | none => .error .invalidIpv6
      else .error .invalidIpv6
  | other =>
      if other.any isForbiddenInHost then .error .invalidDomainCharacter
      else .ok (.opaqueName (String.ofList (encode controlSet other)))

end Precis.Url

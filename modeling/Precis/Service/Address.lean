import Precis.Text.Blank
import Precis.Text.Quoted
import Precis.Url.Parse

/-!
Contract: addresses of services.

This module owns the three forms in which an address may be written, a port, a
host with or without a port, and a whole URL, and the base URL that each
denotes. The path of a base URL ends in a slash, so that a method can be
resolved against it without losing a segment.
-/

namespace Precis.Service

variable [Url.DomainCoding]

inductive AddressError where
  | empty
  | malformed (address : String) (cause : Url.ParseError)
  | withoutHost (address : String)
deriving DecidableEq, Repr

def AddressError.message : AddressError → String
  | .empty => "empty address"
  | .malformed address cause =>
      "invalid address " ++ Text.quoted address ++ ": " ++ cause.message
  | .withoutHost address => "address " ++ Text.quoted address ++ " has no host"

def beginsWith (text beginning : String) : Bool :=
  beginning.toList.isPrefixOf text.toList

/-- The URL that an address without blanks around it stands for, as text. -/
def addressUrlText (address : String) : String :=
  if beginsWith address "http://" || beginsWith address "https://" then address
  else if beginsWith address ":" then "http://127.0.0.1" ++ address
  else "http://" ++ address

def baseUrl (address : String) : Except AddressError Url :=
  let trimmed := Text.trim address
  if trimmed = "" then .error .empty
  else
    match Url.parse (addressUrlText trimmed) with
    | .error cause => .error (.malformed trimmed cause)
    | .ok url => if url.hasHost then .ok url.withFinalSlash else .error (.withoutHost trimmed)

end Precis.Service

import Precis.Url.Address
import Precis.Url.Punycode

/-!
Contract: domains in ASCII.

This module owns what a host relies on where its domain is put in ASCII. Which
characters are mapped and to what, which labels are allowed and how those past
ASCII are coded is settled by tables of Unicode, and none of these is part of
this library. A coding of domains is therefore a parameter, of which the readers
of URLs assume nothing. Whoever needs more asks for a lawful coding: it has the
properties that the processing of domains in URLs is known for.

It also owns the plain coding, which the commands are run with. That one knows
the domains in ASCII only and refuses all others. Of a coded label it asks that
it is a code, and not that the characters behind the code are allowed.
-/

namespace Precis.Url

def isForbiddenInHost (character : Char) : Bool :=
  ['\x00', '\t', '\n', '\r', ' ', '#', '/', ':', '<', '>', '?', '@', '[', '\\', ']', '^',
    '|'].contains character

def isForbiddenInDomain (character : Char) : Bool :=
  isForbiddenInHost character || decide (character.toNat < 0x20) ||
    character == '%' || character == '\x7f'

/-- A character of a domain in ASCII. -/
structure InDomain (character : Char) : Prop where
  ascii : character.toNat < 0x80
  allowed : isForbiddenInDomain character = false

theorem inDomain_iff {character : Char} :
    InDomain character ↔ character.toNat < 0x80 ∧ isForbiddenInDomain character = false :=
  ⟨fun inDomain => ⟨inDomain.ascii, inDomain.allowed⟩, fun ⟨ascii, allowed⟩ => ⟨ascii, allowed⟩⟩

instance : DecidablePred InDomain :=
  fun _ => decidable_of_iff _ inDomain_iff.symm

/-- Whether a label begins with the mark of a code, in letters of either case. -/
def isCoded (label : List Char) : Bool :=
  "xn--".toList.isPrefixOf (label.map Char.toLower)

/-- A way to put domains in ASCII, or to refuse them. -/
class DomainCoding where
  ascii? : (domain : List Char) → Option (List Char)

/-- The laws of a coding of domains. -/
class LawfulDomainCoding [DomainCoding] : Prop where
  /-- What comes of a domain is in ASCII, and nothing that is forbidden is left in it. -/
  inDomain {domain ascii : List Char} :
    DomainCoding.ascii? domain = some ascii → ∀ character ∈ ascii, InDomain character
  /-- What came of a domain stays as it is. -/
  again {domain ascii : List Char} :
    DomainCoding.ascii? domain = some ascii → DomainCoding.ascii? ascii = some ascii
  /-- A domain in ASCII that is not refused has its letters lowered, and nothing else. -/
  lowered {domain ascii : List Char} :
    (∀ character ∈ domain, character.toNat < 0x80) →
      DomainCoding.ascii? domain = some ascii → ascii = domain.map Char.toLower
  /-- A domain in ASCII without coded labels is not refused. -/
  accepted {domain : List Char} :
    (∀ character ∈ domain, InDomain character) →
      (∀ label ∈ splitAt (· == '.') domain, isCoded label = false) →
        (DomainCoding.ascii? domain).isSome = true

/-- Whether a label in small letters is no coded one, or one that needs its code. -/
def isPlainLabel (label : List Char) : Bool :=
  !isCoded label ||
    match Punycode.decode? (label.drop 4) with
    | some decoded => decoded.any fun character => 0x80 ≤ character.toNat
    | none => false

/-- The plain coding: the letters of a domain are lowered. -/
instance DomainCoding.plain : DomainCoding where
  ascii? domain :=
    let lowered := domain.map Char.toLower
    if lowered.all (fun character => decide (InDomain character)) ∧
        (splitAt (· == '.') lowered).all isPlainLabel then
      some lowered
    else none

end Precis.Url

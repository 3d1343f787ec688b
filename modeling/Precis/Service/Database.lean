import Precis.Json.Decoder

/-!
Contract: databases that a service manages.

This module owns the order to make a database unless it exists, and the answer
to it, which says nothing beyond having come.
-/

namespace Precis.Service

open Json

inductive DatabaseKind where
  | sqlite
deriving DecidableEq, Repr

namespace DatabaseKind

def all : List DatabaseKind := [.sqlite]

def name : DatabaseKind → String
  | .sqlite => "sqlite"

def decode : Decoder DatabaseKind :=
  decodeName (selectName all name)

def toValue (kind : DatabaseKind) : Value :=
  .string kind.name

end DatabaseKind

/-- The order to make a database at a path, unless there is one. -/
def databaseOrder (kind : DatabaseKind) (path : String) : Value :=
  .ofMembers [("type", kind.toValue), ("path", .string path)]

/-- An answer without content. -/
def decodeEmpty : Decoder Unit :=
  decodeRecord "Empty" ([] : List (FieldRule Unit)) () .ok

end Precis.Service

import Precis.Json.Number

/-!
Contract: what a JSON text holds.

This module owns two trees. A `Document` is a text as it is spelled: members in
their order, repeated names included, string literals that denote no text, and
numbers beyond the doubles. It is what a reader of one particular record looks
at, for a record may skip what it does not know. A `Value` is generic JSON:
texts, finite numbers, and members, each name once; they are sorted by name
unless a record is written in its declared order. Every value is a document; a
document is a value if nothing in it is unusable and it nests at most 127 deep.
-/

namespace Precis.Json

inductive Value where
  | null
  | bool (value : Bool)
  | number (value : Number)
  | string (text : String)
  | array (items : List Value)
  | object (members : List (String × Value))

/-- A JSON text as it is spelled. A string literal that denotes no text, for it
holds half of a surrogate pair or malformed bytes, is `none`. -/
inductive Document where
  | null
  | bool (value : Bool)
  | number (value : Number)
  | string (text : Option String)
  | array (items : List Document)
  | object (members : List (Option String × Document))

/-- Puts a member among members sorted by name; the newer value of a name wins. -/
def putMember {α : Type} (name : String) (value : α) :
    List (String × α) → List (String × α)
  | [] => [(name, value)]
  | (other, old) :: rest =>
      if name = other then (name, value) :: rest
      else if name < other then (name, value) :: (other, old) :: rest
      else (other, old) :: putMember name value rest

/-- Members sorted by name, where the last value of a repeated name stays. -/
def sortMembers {α : Type} (members : List (String × α)) : List (String × α) :=
  members.foldl (fun sorted member => putMember member.1 member.2 sorted) []

def Value.ofMembers (members : List (String × Value)) : Value :=
  .object (sortMembers members)

def Value.member? (name : String) : Value → Option Value
  | .object members => (members.find? fun member => member.1 = name).map Prod.snd
  | _ => none

mutual

def Value.toDocument : Value → Document
  | .null => .null
  | .bool value => .bool value
  | .number value => .number value
  | .string text => .string (some text)
  | .array items => .array (itemsToDocuments items)
  | .object members => .object (membersToDocuments members)

def itemsToDocuments : List Value → List Document
  | [] => []
  | item :: rest => item.toDocument :: itemsToDocuments rest

def membersToDocuments : List (String × Value) → List (Option String × Document)
  | [] => []
  | (name, value) :: rest => (some name, value.toDocument) :: membersToDocuments rest

end

/-- How deep generic JSON may nest. -/
def nestingLimit : Nat := 127

mutual

/-- The generic value of a document that nests at most `depth` deep. -/
def Document.toValueWithin? : (depth : Nat) → Document → Option Value
  | _, .null => some .null
  | _, .bool value => some (.bool value)
  | _, .number value => if value.isFinite then some (.number value) else none
  | _, .string text => text.map .string
  | 0, .array _ => none
  | depth + 1, .array items => (itemsToValues? depth items).map .array
  | 0, .object _ => none
  | depth + 1, .object members => (membersToValues? depth members).map Value.ofMembers

def itemsToValues? : (depth : Nat) → List Document → Option (List Value)
  | _, [] => some []
  | depth, item :: rest =>
      match item.toValueWithin? depth, itemsToValues? depth rest with
      | some value, some values => some (value :: values)
      | _, _ => none

def membersToValues? :
    (depth : Nat) → List (Option String × Document) → Option (List (String × Value))
  | _, [] => some []
  | depth, (name, item) :: rest =>
      match name, item.toValueWithin? depth, membersToValues? depth rest with
      | some name, some value, some values => some ((name, value) :: values)
      | _, _, _ => none

end

def Document.toValue? (document : Document) : Option Value :=
  document.toValueWithin? nestingLimit

end Precis.Json

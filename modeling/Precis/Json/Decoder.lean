import Precis.Json.Document
import Precis.Text.Quoted

/-!
Contract: from a document to a record of the domain.

This module owns the conventions by which a record is read from JSON, and the
message for each way it can fail. A record is an object of its fields, in any
order, with unknown members skipped, or an array of its fields in declared
order. A name without payload is its text, or an object with that one member
and a null. Of several failures the first one met is reported; a missing field
of an object is reported after all members have been read.
-/

namespace Precis.Json

inductive DecodeError where
  | missingField (name : String)
  | duplicateField (name : String)
  | invalidType (found expected : String)
  | outOfRange (found : Int) (expected : String)
  | unknownName (found : String) (known : List String)
  | notSingleMember
  | tooShort (length : Nat) (record : String) (fields : Nat)
  | tooLong (length : Nat)
  | unusableText
deriving DecidableEq, Repr

def backquoted (name : String) : String :=
  "\x60" ++ name ++ "\x60"

def expectedNames : List String → String
  | [] => "there are no variants"
  | [only] => "expected " ++ backquoted only
  | [first, second] => "expected " ++ backquoted first ++ " or " ++ backquoted second
  | names => "expected one of " ++ String.intercalate ", " (names.map backquoted)

def DecodeError.message : DecodeError → String
  | .missingField name => "missing field " ++ backquoted name
  | .duplicateField name => "duplicate field " ++ backquoted name
  | .invalidType found expected => "invalid type: " ++ found ++ ", expected " ++ expected
  | .outOfRange found expected =>
      "invalid value: integer " ++ backquoted (toString found) ++ ", expected " ++ expected
  | .unknownName found known =>
      "unknown variant " ++ backquoted found ++ ", " ++ expectedNames known
  | .notSingleMember => "invalid value: map, expected map with a single key"
  | .tooShort length record fields =>
      "invalid length " ++ toString length ++ ", expected struct " ++ record ++ " with " ++
        toString fields ++ (if fields = 1 then " element" else " elements")
  | .tooLong length =>
      "invalid length " ++ toString length ++ ", expected fewer elements in array"
  | .unusableText => "lone leading surrogate in hex escape"

/-- What a message calls a document that has the wrong type. -/
def Document.description : Document → String
  | .null => "null"
  | .bool value => "boolean " ++ backquoted (toString value)
  | .number (.integer value) => "integer " ++ backquoted (toString value)
  | .number value => "floating point " ++ backquoted value.text
  | .string text => "string " ++ Text.quoted (text.getD "")
  | .array _ => "sequence"
  | .object _ => "map"

abbrev Decoder (α : Type) := Document → Except DecodeError α

def decodeText : Decoder String
  | .string (some text) => .ok text
  | .string none => .error .unusableText
  | other => .error (.invalidType other.description "a string")

/-- An integer from zero to `greatest`, of the type that messages call `name`. -/
def decodeUnsigned (name : String) (greatest : Nat) : Decoder Nat
  | .number (.integer value) =>
      if 0 ≤ value ∧ value ≤ greatest then .ok value.toNat else .error (.outOfRange value name)
  | other => .error (.invalidType other.description name)

def decodeUnsigned32 : Decoder UInt32 :=
  fun document => (decodeUnsigned "u32" 4294967295 document).map UInt32.ofNat

def decodeUnsigned64 : Decoder UInt64 :=
  fun document => (decodeUnsigned "u64" 18446744073709551615 document).map UInt64.ofNat

def decodeOptional {α : Type} (decode : Decoder α) : Decoder (Option α)
  | .null => .ok none
  | other => (decode other).map some

def decodeList {α : Type} (decode : Decoder α) : Decoder (List α)
  | .array items => items.mapM decode
  | other => .error (.invalidType other.description "a sequence")

/-- Null, where nothing else may stand. -/
def decodeUnit : Decoder Unit
  | .null => .ok ()
  | other => .error (.invalidType other.description "unit")

/-- One of several names, read by `select`: its text, or an object that has it
as the only member, with null. -/
def decodeName {α : Type} (select : String → Except DecodeError α) : Decoder α
  | .string (some name) => select name
  | .string none => .error .unusableText
  | .object [(some name, payload)] =>
      match select name with
      | .error failure => .error failure
      | .ok value => (decodeUnit payload).map fun _ => value
  | .object [(none, _)] => .error .unusableText
  | .object _ => .error .notSingleMember
  | other => .error (.invalidType other.description "string or map")

/-- The value whose name is given, among the values that a list holds. -/
def selectName
    {α : Type}
    (values : List α)
    (nameOf : α → String)
    (name : String) : Except DecodeError α :=
  match values.find? fun value => nameOf value = name with
  | some value => .ok value
  | none => .error (.unknownName name (values.map nameOf))

/-- One field of a record that is being read into a draft: how its document
changes the draft, and whether an array may end before it. -/
structure FieldRule (draft : Type) where
  name : String
  read : Document → draft → Except DecodeError draft
  mayEndBefore : Bool

def FieldRule.storing
    {draft α : Type}
    (name : String)
    (decode : Decoder α)
    (store : α → draft → draft)
    (mayEndBefore : Bool) : FieldRule draft :=
  { name
    read := fun document state => (decode document).map fun value => store value state
    mayEndBefore }

/-- Reads the members of an object in their order. `seen` names the fields read before. -/
def readObject
    {draft : Type}
    (fields : List (FieldRule draft)) :
    (seen : List String) →
      List (Option String × Document) → draft → Except DecodeError draft
  | _, [], state => .ok state
  | _, (none, _) :: _, _ => .error .unusableText
  | seen, (some name, document) :: rest, state =>
      match fields.find? fun field => field.name = name with
      | none => readObject fields seen rest state
      | some field =>
          if seen.contains name then .error (.duplicateField name)
          else
            match field.read document state with
            | .error failure => .error failure
            | .ok next => readObject fields (name :: seen) rest next

/-- Reads the items of an array into the fields in their declared order. `index`
counts the fields before, `length` all items of the array, `total` all fields. -/
def readArray
    {draft : Type}
    (record : String)
    (total length : Nat) :
    (index : Nat) → List (FieldRule draft) → List Document → draft → Except DecodeError draft
  | _, [], [], state => .ok state
  | _, [], _ :: _, _ => .error (.tooLong length)
  | index, field :: fields, [], state =>
      if field.mayEndBefore then readArray record total length (index + 1) fields [] state
      else .error (.tooShort index record total)
  | index, field :: fields, document :: rest, state =>
      match field.read document state with
      | .error failure => .error failure
      | .ok next => readArray record total length (index + 1) fields rest next

/-- A record: its fields are read into a draft, from which `finish` makes the record. -/
def decodeRecord
    {draft α : Type}
    (record : String)
    (fields : List (FieldRule draft))
    (empty : draft)
    (finish : draft → Except DecodeError α) : Decoder α
  | .object members => readObject fields [] members empty >>= finish
  | .array items =>
      readArray record fields.length items.length 0 fields items empty >>= finish
  | other => .error (.invalidType other.description ("struct " ++ record))

def required {α : Type} (name : String) : Option α → Except DecodeError α
  | some value => .ok value
  | none => .error (.missingField name)

end Precis.Json

import Precis.Json.Decoder
import Precis.Summary.Request

/-!
Contract: requests and summaries as JSON.

This module owns how a request for a summary and a summary are written as
generic JSON and read back. A model or a ceiling that is not given is left out;
a ceiling of zero is written as zero.
-/

namespace Precis

open Json

namespace Model

def Family.decode : Decoder Family :=
  decodeName (selectName Family.all Family.name)

def Id.decode : Decoder Id :=
  decodeName (selectName Id.all Id.name)

def Family.toValue (family : Family) : Value :=
  .string family.name

def Id.toValue (id : Id) : Value :=
  .string id.name

end Model

namespace Summary

def unsigned32Value (number : UInt32) : Value :=
  .number (.integer number.toNat)

namespace Request

/-- The fields of a request that have been read so far. -/
structure Draft where
  family : Option Model.Family
  instruction : Option String
  text : Option String
  model : Option Model.Id
  ceiling : Option UInt32

def fields : List (FieldRule Draft) :=
  [.storing "family" Model.Family.decode
      (fun family draft => { draft with family := some family }) false,
    .storing "prompt" decodeText
      (fun instruction draft => { draft with instruction := some instruction }) false,
    .storing "text" decodeText (fun text draft => { draft with text := some text }) false,
    .storing "model" (decodeOptional Model.Id.decode)
      (fun model draft => { draft with model }) true,
    .storing "max_input_tokens" (decodeOptional decodeUnsigned32)
      (fun ceiling draft => { draft with ceiling }) true]

def decode : Decoder Request :=
  decodeRecord "SummaryRequest" fields ⟨none, none, none, none, none⟩ fun draft => do
    let family ← required "family" draft.family
    let instruction ← required "prompt" draft.instruction
    let text ← required "text" draft.text
    .ok { family, instruction, text, model := draft.model, ceiling := draft.ceiling }

def toValue (request : Request) : Value :=
  .ofMembers <|
    [("family", request.family.toValue), ("prompt", .string request.instruction),
      ("text", .string request.text)] ++
    (match request.model with
      | some model => [("model", model.toValue)]
      | none => []) ++
    (match request.ceiling with
      | some ceiling => [("max_input_tokens", unsigned32Value ceiling)]
      | none => [])

end Request

namespace Digest

structure Draft where
  text : Option String
  model : Option Model.Id

def fields : List (FieldRule Draft) :=
  [.storing "summary" decodeText (fun text draft => { draft with text := some text }) false,
    .storing "model" Model.Id.decode (fun model draft => { draft with model := some model }) false]

def decode : Decoder Digest :=
  decodeRecord "Summary" fields ⟨none, none⟩ fun draft => do
    let text ← required "summary" draft.text
    let model ← required "model" draft.model
    .ok { text, model }

def toValue (summary : Digest) : Value :=
  .ofMembers [("summary", .string summary.text), ("model", summary.model.toValue)]

end Digest

end Summary

end Precis

import Precis.Json.Decoder
import Precis.Json.Writer
import Precis.Summary.Reply

/-!
Contract: the JSON of the Gemini interface.

This module owns the body of a request, which is the same for counting and for
generating, and the reading of both answers. In an answer the list of
candidates and the list of parts may be missing, and the content, the text and
the usage may be missing or null; a part without text has the empty text.
-/

namespace Precis.Gemini

open Json

/-- The body that carries an input: one content of the user, with one part. Its
members stand in declared order. -/
def requestBody (input : String) : Value :=
  let part := Value.object [("text", .string input)]
  let content := Value.object [("role", .string "user"), ("parts", .array [part])]
  .object [("contents", .array [content])]

/-- The answer to a count: the number of tokens, zero where it is missing. -/
def decodeCount : Decoder UInt64 :=
  decodeRecord "CountTokensResponse"
    [.storing "totalTokens" decodeUnsigned64 (fun tokens _ => tokens) true]
    0 .ok

def decodePart : Decoder String :=
  decodeRecord "Part"
    [.storing "text" (decodeOptional decodeText) (fun text _ => text) false]
    (none : Option String) fun text => .ok (text.getD "")

def decodeContent : Decoder (List String) :=
  decodeRecord "Content"
    [.storing "parts" (decodeList decodePart) (fun parts _ => parts) true]
    [] .ok

def decodeCandidate : Decoder (Option (List String)) :=
  decodeRecord "Candidate"
    [.storing "content" (decodeOptional decodeContent) (fun content _ => content) false]
    (none : Option (List String)) .ok

def decodeUsage : Decoder (Option UInt64) :=
  decodeRecord "UsageMetadata"
    [.storing "totalTokenCount" (decodeOptional decodeUnsigned64) (fun total _ => total) false]
    (none : Option UInt64) .ok

/-- The fields of an answer to a generation, in declared order. -/
def replyFields : List (FieldRule Summary.Reply) :=
  [.storing "candidates" (decodeList decodeCandidate)
      (fun candidates reply => { reply with candidates }) true,
    .storing "usageMetadata" (decodeOptional decodeUsage)
      (fun usage reply => { reply with usage := usage.join }) false]

def decodeReply : Decoder Summary.Reply :=
  decodeRecord "GenerateContentResponse" replyFields { candidates := [], usage := none } .ok

end Precis.Gemini

import Precis.Usage.Ledger

/-!
Contract: what can end an attempt at a summary.

This module owns the causes, their wording, and the division between those that
end a request at once and those after which the next model is tried. A cause
ends the request when no other model could fare better: a missing key, a family
or model that is not served, or a request that was cancelled.
-/

namespace Precis.Summary

/-- Why no summary came of a model, or of a request. -/
inductive Error where
  | missingCredential (provider : String)
  | unsupportedFamily (family : String)
  | unsupportedModel (model : String)
  | requestFailed (provider reason : String)
  | rateLimited (provider : String) (retryAfter : Option Duration)
  | invalidResponse (provider reason : String)
  | contextLengthExceeded (used limit : UInt64)
  | noContent
  | noContentParts
  | budgetExceeded (exceeded : Usage.Exceeded)
  | allModelsFailed (models : List String)
  | cancelled
deriving DecidableEq, Repr

namespace Error

/-- The text of a waiting time that may be unknown. -/
def retryText : Option Duration → String
  | none => "None"
  | some duration => "Some(" ++ duration.text ++ ")"

def message : Error → String
  | .missingCredential provider => "Missing API key for provider " ++ provider
  | .unsupportedFamily family => "Unsupported model family: " ++ family
  | .unsupportedModel model => "Unsupported model: " ++ model
  | .requestFailed provider reason => "Provider " ++ provider ++ " request failed: " ++ reason
  | .rateLimited provider retryAfter =>
      "Provider " ++ provider ++ " rate limited, retry after " ++ retryText retryAfter
  | .invalidResponse provider reason =>
      "Invalid response from " ++ provider ++ ": " ++ reason
  | .contextLengthExceeded used limit =>
      "Context length exceeded: " ++ toString used.toNat ++ " tokens used, " ++
        toString limit.toNat ++ " allowed"
  | .noContent => "No content generated"
  | .noContentParts => "No content parts generated"
  | .budgetExceeded exceeded => exceeded.message
  | .allModelsFailed models =>
      "Failed to generate summary with all models: " ++ String.intercalate ", " models
  | .cancelled => "Request cancelled"

/-- Whether a cause ends the request instead of moving on to the next model. -/
def isFatal : Error → Bool
  | .missingCredential _ => true
  | .unsupportedFamily _ => true
  | .unsupportedModel _ => true
  | .cancelled => true
  | _ => false

end Error

end Precis.Summary

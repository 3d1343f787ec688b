import Precis.Settings.Environment
import Precis.Model.Id

/-!
Contract: the settings of a one-shot summary.

This module owns the variables that say how one text is to be summarized: the
instruction that goes before it, the model that is pinned, and the ceiling on
its input. A blank model pins none, and a ceiling of zero sets none.
-/

namespace Precis.Settings

/-- What a one-shot summary is asked with. -/
structure CommandSettings where
  instruction : String
  model : Option Model.Id
  ceiling : Option UInt32
deriving DecidableEq, Repr

namespace CommandSettings

def defaultInstruction : String :=
  "Summarize the following email as a short, actionable task. " ++
    "Lead with what needs to be done, then the deadline and the people involved if any."

def pinnedModel (environment : Environment) : Except Fault (Option Model.Id) :=
  match filledText? environment "INBOX_TODO_MODEL" with
  | none => .ok none
  | some text =>
      match Model.Id.ofText (Text.trim text) with
      | .ok model => .ok (some model)
      | .error cause => .error (.invalid "INBOX_TODO_MODEL" cause)

def ofEnvironment (environment : Environment) : Except Fault CommandSettings := do
  let model ← pinnedModel environment
  let ceiling ← unsigned32Or environment "INBOX_TODO_REQUEST_MAX_TOKENS" 0
  .ok
    { instruction := (text? environment "INBOX_TODO_PROMPT").getD defaultInstruction
      model
      ceiling := if ceiling = 0 then none else some ceiling }

end CommandSettings

end Precis.Settings

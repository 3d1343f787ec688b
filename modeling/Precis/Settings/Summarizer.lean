import Precis.Settings.Environment
import Precis.Model.Catalog
import Precis.Time

/-!
Contract: the settings of the summarizer.

This module owns the variables that configure a summarizer, their defaults, and
the order in which they are read. The first fault in that order is reported. A
credential that is blank counts as missing, but one that is not blank is kept
as it stands.
-/

namespace Precis.Settings

structure SummarizerSettings where
  credential : Option String
  defaultCeiling : UInt32
  window : Duration
  limit : Int64
  backoff : Duration
  baseUrl : String
deriving DecidableEq, Repr

namespace SummarizerSettings

def defaultBaseUrl : String := "https://generativelanguage.googleapis.com/v1beta"

/-- The settings where nothing is set. -/
def standard : SummarizerSettings :=
  { credential := none
    defaultCeiling := Model.defaultCeiling
    window := .ofSeconds 86400
    limit := 3000000
    backoff := .ofMilliseconds 1000
    baseUrl := defaultBaseUrl }

def ofEnvironment (environment : Environment) : Except Fault SummarizerSettings := do
  let defaultCeiling ← unsigned32Or environment "INBOX_TODO_MAX_INPUT_TOKENS" Model.defaultCeiling
  let windowSeconds ← unsigned64Or environment "INBOX_TODO_USAGE_WINDOW_SECS" 86400
  let limit ← signed64Or environment "INBOX_TODO_DAILY_TOKEN_LIMIT" 3000000
  let backoffMilliseconds ← unsigned64Or environment "INBOX_TODO_RETRY_BACKOFF_MS" 1000
  .ok
    { credential := filledText? environment "GEMINI_API_KEY"
      defaultCeiling
      window := .ofSeconds windowSeconds.toNat
      limit
      backoff := .ofMilliseconds backoffMilliseconds.toNat
      baseUrl := (text? environment "INBOX_TODO_GEMINI_BASE_URL").getD defaultBaseUrl }

end SummarizerSettings

end Precis.Settings

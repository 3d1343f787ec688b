import Precis.Gemini.Backend
import Precis.Settings.Summarizer
import Precis.Summary.Summarizer

/-!
Contract: the summarizer that settings describe.

This module owns the summarizer over the Gemini interface with the standard
catalog, and the session in which it begins, with nothing recorded.
-/

namespace Precis.Settings.SummarizerSettings

variable [Url.DomainCoding]

def backend (settings : SummarizerSettings) : Gemini.Backend :=
  { baseUrl := settings.baseUrl, credential := settings.credential.getD "" }

/-- The summarizer that the settings describe, between a server and a clock. -/
def summarizer
    (settings : SummarizerSettings)
    (server : Http.Server)
    (clock : Summary.Log → Instant) : Summary.Summarizer :=
  { credential := settings.credential
    defaultCeiling := settings.defaultCeiling
    backoff := settings.backoff
    catalog := Model.Catalog.gemini
    surroundings := settings.backend.surroundings server clock }

def session (settings : SummarizerSettings) : Summary.Session :=
  Summary.Session.start (Usage.Ledger.empty settings.window settings.limit)

end Precis.Settings.SummarizerSettings

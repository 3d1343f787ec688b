import Precis.Command.Report
import Precis.Gemini.Summarizer
import Precis.Settings.Command

/-!
Contract: the command that summarizes one mail.

This module owns the command from its environment and its input to its report.
The settings are read first, those of the summarizer before those of the
request, then the input, which has to be a text that is not blank. The summary
is written without blanks around it.
-/

namespace Precis.Command

variable [Url.DomainCoding]

/-- Why the input of the command cannot be summarized. -/
inductive InputFault where
  | malformed
  | blank
deriving DecidableEq, Repr

def InputFault.text : InputFault → String
  | .malformed =>
      failureTextIn "failed to read email body from stdin" "stream did not contain valid UTF-8"
  | .blank => failureText "no input on stdin"

def readMail (input : List UInt8) : Except InputFault String :=
  match Text.Utf8.decode? input with
  | none => .error .malformed
  | some characters =>
      let mail := String.ofList characters
      if Text.isBlankText mail then .error .blank else .ok mail

/-- What a run of the command did: its report, everything that it sent, oldest
first, and the nanoseconds that it took. -/
structure SummarizeRun where
  report : Report
  sent : List Http.Sent
  elapsed : Nat

/-- A run that failed before anything was sent. -/
def SummarizeRun.refused (failure : String) : SummarizeRun :=
  { report := .failed "" failure, sent := [], elapsed := 0 }

def summaryRequest (settings : Settings.CommandSettings) (mail : String) : Summary.Request :=
  { family := .gemini
    instruction := settings.instruction
    text := mail
    model := settings.model
    ceiling := settings.ceiling }

def summaryNotes (summary : Summary.Digest) (usage : UInt64) : String :=
  "\n   Model: " ++ summary.model.name ++ "\n   Tokens used in window: " ++
    toString usage.toNat ++ "\n"

def summarizeMail
    (summarizerSettings : Settings.SummarizerSettings)
    (commandSettings : Settings.CommandSettings)
    (server : Http.Server)
    (clock : Summary.Log → Instant)
    (cancellation : Summary.Cancellation)
    (mail : String) : SummarizeRun :=
  let summarizer := summarizerSettings.summarizer server clock
  let (result, session) :=
    summarizer.summarize cancellation (summaryRequest commandSettings mail)
      summarizerSettings.session
  let report :=
    match result with
    | .error error => Report.failed "" (failureText error.message)
    | .ok summary =>
        let usage := (session.ledger.usage (clock session.log)).1
        .succeeded (Text.trim summary.text ++ "\n") (summaryNotes summary usage)
  { report
    sent := (summarizerSettings.backend.sent session.log).reverse
    elapsed := session.now }

def summarizeSettings (environment : Settings.Environment) :
    Except Settings.Fault (Settings.SummarizerSettings × Settings.CommandSettings) := do
  let summarizerSettings ← Settings.SummarizerSettings.ofEnvironment environment
  let commandSettings ← Settings.CommandSettings.ofEnvironment environment
  .ok (summarizerSettings, commandSettings)

def summarize
    (environment : Settings.Environment)
    (input : List UInt8)
    (server : Http.Server)
    (clock : Summary.Log → Instant)
    (cancellation : Summary.Cancellation) : SummarizeRun :=
  match summarizeSettings environment with
  | .error fault => .refused (failureText fault.message)
  | .ok (summarizerSettings, commandSettings) =>
      match readMail input with
      | .error fault => .refused fault.text
      | .ok mail =>
          summarizeMail summarizerSettings commandSettings server clock cancellation mail

end Precis.Command

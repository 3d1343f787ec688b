import Precis.Command.Summarize
import Precis.Proofs.Gemini.Traffic
import Precis.Proofs.Settings.Loading
import Precis.Proofs.Text.Utf8

/-!
Contract: the command that summarizes one mail, from its environment and its
input to what it sends and reports.

Owns that the first fault of the settings and the input is reported before
anything is sent; that the first thing sent is a count of the whole mail after
the instruction; and that a summary is reported as the model gave it, and
nothing else is written to the output.

Does not own which models are tried, nor how an input is cut.
-/

namespace Precis.Command

open Gemini

/-! ### Faults before anything is sent -/

theorem readMail_eq_ok_iff {input : List UInt8} {mail : String} :
    readMail input = .ok mail ↔
      Text.Utf8.encode mail.toList = input ∧ Text.isBlankText mail = false := by
  constructor
  · intro read
    unfold readMail at read
    split at read
    case h_1 => cases read
    case h_2 characters decoded =>
      simp only at read
      split at read
      case isTrue => cases read
      case isFalse notBlank =>
        rw [← Except.ok.inj read, String.toList_ofList]
        exact ⟨Text.Utf8.decode?_eq_some_iff.mp decoded, Bool.not_eq_true _ ▸ notBlank⟩
  · rintro ⟨encodes, notBlank⟩
    unfold readMail
    rw [Text.Utf8.decode?_eq_some_iff.mpr encodes]
    simp [notBlank]

/-- What is wrong with the settings of a loader, as the command reports it. -/
def settingsRefusal?
    (environment : Settings.Environment)
    (loader : Settings.Loader) : Option String :=
  (causeOf (loader.load environment)).map fun fault => failureText fault.message

/-- What is wrong with the settings of the summarizer, those of the request and
the input, each as the command reports it. -/
def refusals (environment : Settings.Environment) (input : List UInt8) : List (Option String) :=
  [settingsRefusal? environment .summarizer,
    settingsRefusal? environment .command,
    (causeOf (readMail input)).map InputFault.text]

/-- The first thing that is wrong before anything is sent. -/
def refusal? (environment : Settings.Environment) (input : List UInt8) : Option String :=
  (refusals environment input).findSome? id

/-- Where nothing is wrong, the settings are read, and so is the mail. -/
structure Accepted
    (environment : Settings.Environment)
    (input : List UInt8)
    (summarizerSettings : Settings.SummarizerSettings)
    (commandSettings : Settings.CommandSettings)
    (mail : String) : Prop where
  summarizer : Settings.SummarizerSettings.ofEnvironment environment = .ok summarizerSettings
  command : Settings.CommandSettings.ofEnvironment environment = .ok commandSettings
  bytes : Text.Utf8.encode mail.toList = input
  notBlank : Text.isBlankText mail = false

section Run

variable (environment : Settings.Environment) (input : List UInt8) (server : Http.Server)
  (clock : Summary.Log → Instant) (cancellation : Summary.Cancellation)

/-- The command refuses for the first fault, or goes on to the mail. -/
theorem refused_or_accepted [Url.DomainCoding] :
    (∃ failure, refusal? environment input = some failure ∧
      summarize environment input server clock cancellation = .refused failure) ∨
    (refusal? environment input = none ∧ ∃ summarizerSettings commandSettings mail,
      Accepted environment input summarizerSettings commandSettings mail ∧
        summarize environment input server clock cancellation =
          summarizeMail summarizerSettings commandSettings server clock cancellation mail) := by
  unfold refusal? refusals settingsRefusal? summarize summarizeSettings
  simp only [Settings.Loader.load]
  cases summarizer : Settings.SummarizerSettings.ofEnvironment environment with
  | error fault => exact .inl ⟨_, rfl, rfl⟩
  | ok summarizerSettings =>
      cases command : Settings.CommandSettings.ofEnvironment environment with
      | error fault => exact .inl ⟨_, rfl, rfl⟩
      | ok commandSettings =>
          cases read : readMail input with
          | error fault => exact .inl ⟨_, rfl, by simp [bind, Except.bind]⟩
          | ok mail =>
              obtain ⟨bytes, notBlank⟩ := readMail_eq_ok_iff.mp read
              refine .inr ⟨rfl, summarizerSettings, commandSettings, mail,
                ⟨summarizer, command, bytes, notBlank⟩, ?_⟩
              simp [bind, Except.bind]

end Run

/-! ### From the mail to the report -/

/-- The bytes of what is counted first: the instruction, a line break, and the
input as it stands. -/
theorem encode_input (settings : Settings.CommandSettings) (mail : String) :
    Text.Utf8.encode (summaryRequest settings mail).input.toList =
      Text.Utf8.encode settings.instruction.toList ++ 0x0a :: Text.Utf8.encode mail.toList := by
  have lineBreak : Text.Utf8.encode "\n".toList = [0x0a] := by decide
  simp only [summaryRequest, Summary.Request.input, String.toList_append]
  unfold Text.Utf8.encode at lineBreak ⊢
  rw [List.flatMap_append, List.flatMap_append, lineBreak, List.append_assoc]
  rfl

/-- What comes of the summary of a mail. -/
def resultOf
    [Url.DomainCoding]
    (summarizerSettings : Settings.SummarizerSettings)
    (commandSettings : Settings.CommandSettings)
    (server : Http.Server)
    (clock : Summary.Log → Instant)
    (mail : String) : Except Summary.Error Summary.Digest :=
  ((summarizerSettings.summarizer server clock).summarize .never
    (summaryRequest commandSettings mail) summarizerSettings.session).1

/-- How a mail is summarized by a run. If the run sends anything, there is a
credential that is not blank, and the first thing sent counts the whole mail
after the instruction. The run succeeds exactly if there is a summary. Then the
summary without blanks around it, in a line of its own, is all of the output,
the model is named, and the last thing sent has brought the summary from this
model. Otherwise nothing is written to the output. -/
structure Summarizes
    [Url.DomainCoding]
    (environment : Settings.Environment)
    (summarizerSettings : Settings.SummarizerSettings)
    (commandSettings : Settings.CommandSettings)
    (server : Http.Server)
    (mail : String)
    (result : Except Summary.Error Summary.Digest)
    (run : SummarizeRun) : Prop where
  opens : run.sent = [] ∨ ∃ key first rest,
    Settings.text? environment "GEMINI_API_KEY" = some key ∧ Text.isBlankText key = false ∧
      Keyed summarizerSettings key ∧ run.sent = first :: rest ∧
      CountsWhole summarizerSettings (summaryRequest commandSettings mail) first.request
  bytes : Text.Utf8.encode (summaryRequest commandSettings mail).input.toList =
    Text.Utf8.encode commandSettings.instruction.toList ++ 0x0a :: Text.Utf8.encode mail.toList
  succeeds : run.report.exitCode = 0 ↔ ∃ summary, result = .ok summary
  summary : ∀ summary, result = .ok summary →
    (∃ usage, run.report =
      .succeeded (Text.trim summary.text ++ "\n") (summaryNotes summary usage)) ∧
    ∃ earlier last, run.sent = earlier ++ [last] ∧
      Brings summarizerSettings server summary earlier last.request
  failure : ∀ error, result = .error error →
    run.report = .failed "" (failureText error.message)

theorem report_summarizeMail
    [Url.DomainCoding]
    (summarizerSettings : Settings.SummarizerSettings)
    (commandSettings : Settings.CommandSettings)
    (server : Http.Server)
    (clock : Summary.Log → Instant)
    (mail : String) :
    let run := summarizeMail summarizerSettings commandSettings server clock .never mail
    match resultOf summarizerSettings commandSettings server clock mail with
    | .error error => run.report = .failed "" (failureText error.message)
    | .ok summary => ∃ usage, run.report =
        .succeeded (Text.trim summary.text ++ "\n") (summaryNotes summary usage) := by
  unfold summarizeMail resultOf
  simp only
  generalize (summarizerSettings.summarizer server clock).summarize .never
    (summaryRequest commandSettings mail) summarizerSettings.session = outcome
  obtain ⟨result, session⟩ := outcome
  cases result with
  | error error => rfl
  | ok summary => exact ⟨_, rfl⟩

theorem sent_summarizeMail
    [Url.DomainCoding]
    (summarizerSettings : Settings.SummarizerSettings)
    (commandSettings : Settings.CommandSettings)
    (server : Http.Server)
    (clock : Summary.Log → Instant)
    (mail : String) :
    (summarizeMail summarizerSettings commandSettings server clock .never mail).sent =
      firstSent summarizerSettings server clock (summaryRequest commandSettings mail) :=
  rfl

/-- A key that the settings hold was set, and is not blank. -/
theorem text?_of_keyed
    {environment : Settings.Environment}
    {settings : Settings.SummarizerSettings}
    {key : String}
    (isRead : Settings.SummarizerSettings.ofEnvironment environment = .ok settings)
    (keyed : Keyed settings key) :
    Settings.text? environment "GEMINI_API_KEY" = some key ∧ Text.isBlankText key = false := by
  have credential := (Settings.SummarizerSettings.ofEnvironment_eq_ok_iff.mp isRead).credential
  rw [keyed.1] at credential
  obtain ⟨isSet, notBlank⟩ := Option.filter_eq_some_iff.mp credential.symm
  exact ⟨isSet, by simpa using notBlank⟩

theorem summarizes_summarizeMail
    [Url.DomainCoding]
    {environment : Settings.Environment}
    {summarizerSettings : Settings.SummarizerSettings}
    (isRead : Settings.SummarizerSettings.ofEnvironment environment = .ok summarizerSettings)
    (commandSettings : Settings.CommandSettings)
    (server : Http.Server)
    (clock : Summary.Log → Instant)
    (mail : String) :
    Summarizes environment summarizerSettings commandSettings server mail
      (resultOf summarizerSettings commandSettings server clock mail)
      (summarizeMail summarizerSettings commandSettings server clock .never mail) := by
  have report := report_summarizeMail summarizerSettings commandSettings server clock mail
  have opens : (summarizeMail summarizerSettings commandSettings server clock .never mail).sent =
      [] ∨ ∃ key first rest,
        Settings.text? environment "GEMINI_API_KEY" = some key ∧ Text.isBlankText key = false ∧
          Keyed summarizerSettings key ∧
          (summarizeMail summarizerSettings commandSettings server clock .never mail).sent =
            first :: rest ∧
          CountsWhole summarizerSettings (summaryRequest commandSettings mail) first.request := by
    rw [sent_summarizeMail]
    rcases firstSent_opens summarizerSettings server clock (summaryRequest commandSettings mail)
      with silent | ⟨key, first, rest, keyed, sent, counts⟩
    · exact .inl silent
    · obtain ⟨isSet, notBlank⟩ := text?_of_keyed isRead keyed
      exact .inr ⟨key, first, rest, isSet, notBlank, keyed, sent, counts⟩
  cases result : resultOf summarizerSettings commandSettings server clock mail with
  | error error =>
      simp only [result] at report
      exact
        { opens
          bytes := encode_input commandSettings mail
          succeeds := by rw [report]; simp [Report.failed]
          summary := nofun
          failure := by
            rintro _ ⟨rfl⟩
            exact report }
  | ok summary =>
      simp only [result] at report
      have ends := firstSent_ends summarizerSettings server clock
        (summaryRequest commandSettings mail) result
      rw [← sent_summarizeMail] at ends
      exact
        { opens
          bytes := encode_input commandSettings mail
          succeeds := by
            obtain ⟨usage, reported⟩ := report
            rw [reported]
            simp [Report.succeeded]
          summary := by
            rintro _ ⟨rfl⟩
            exact ⟨report, ends⟩
          failure := nofun }

theorem Summarizes.output_eq
    [Url.DomainCoding]
    {environment : Settings.Environment}
    {summarizerSettings : Settings.SummarizerSettings}
    {commandSettings : Settings.CommandSettings}
    {server : Http.Server}
    {mail : String}
    {result : Except Summary.Error Summary.Digest}
    {run : SummarizeRun}
    (summarizes :
      Summarizes environment summarizerSettings commandSettings server mail result run)
    (failed : run.report.exitCode ≠ 0) :
    run.report.output = "" := by
  cases result with
  | error error =>
      rw [summarizes.failure error rfl]
      rfl
  | ok summary => exact absurd (summarizes.succeeds.mpr ⟨summary, rfl⟩) failed

/-- The command from end to end: the first fault is all that is reported, and
then nothing is sent; where there is no fault the mail is summarized. In every
failing case nothing is written to the output. -/
theorem summarize_end_to_end
    [Url.DomainCoding]
    (environment : Settings.Environment)
    (input : List UInt8)
    (server : Http.Server)
    (clock : Summary.Log → Instant) :
    ((summarize environment input server clock .never).report.exitCode ≠ 0 →
      (summarize environment input server clock .never).report.output = "") ∧
    (∀ failure, refusal? environment input = some failure →
      summarize environment input server clock .never =
        { report := .failed "" failure, sent := [], elapsed := 0 }) ∧
    (refusal? environment input = none →
      ∃ summarizerSettings commandSettings mail,
        Accepted environment input summarizerSettings commandSettings mail ∧
        Summarizes environment summarizerSettings commandSettings server mail
          (resultOf summarizerSettings commandSettings server clock mail)
          (summarize environment input server clock .never)) := by
  rcases refused_or_accepted environment input server clock .never with
    ⟨failure, refused, run⟩ | ⟨noRefusal, summarizerSettings, commandSettings, mail, accepted, run⟩
  · rw [run, refused]
    refine ⟨fun _ => rfl, ?_, nofun⟩
    rintro _ ⟨rfl⟩
    rfl
  · have summarizes := summarizes_summarizeMail accepted.summarizer commandSettings server clock
      mail
    rw [run, noRefusal]
    exact ⟨summarizes.output_eq, nofun, fun _ =>
      ⟨summarizerSettings, commandSettings, mail, accepted, summarizes⟩⟩

end Precis.Command

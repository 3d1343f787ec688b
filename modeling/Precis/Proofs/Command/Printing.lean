import Precis.Proofs.Command.EndToEnd
import Precis.Proofs.Settings.Variables
import Precis.Proofs.Summary.Settlement

/-!
Contract: what the command that summarizes one mail prints.

Owns that a run succeeds exactly if it prints, in a line of its own, a text that
the last reply brought, without the blanks around it; that this text is not
empty; and that the line is empty exactly for a text of blanks, which the walk
over the models takes for a summary like any other text that is not empty.

Does not own what is written beside the summary.
-/

namespace Precis.Command

open Gemini (Brings)
open Summary (Summarizer)

/-- A run prints a summary, which its last request brought. -/
structure Prints
    [Url.DomainCoding]
    (summarizerSettings : Settings.SummarizerSettings)
    (server : Http.Server)
    (summary : Summary.Digest)
    (run : SummarizeRun) : Prop where
  notEmpty : summary.text ≠ ""
  report : ∃ usage, run.report =
    .succeeded (Text.trim summary.text ++ "\n") (summaryNotes summary usage)
  brought : ∃ earlier last, run.sent = earlier ++ [last] ∧
    Brings summarizerSettings server summary earlier last.request
  nothing_iff : run.report.output = "\n" ↔ Text.isBlankText summary.text = true

theorem Accepted.summarize_eq
    [Url.DomainCoding]
    {environment : Settings.Environment}
    {input : List UInt8}
    {summarizerSettings : Settings.SummarizerSettings}
    {commandSettings : Settings.CommandSettings}
    {mail : String}
    (accepted : Accepted environment input summarizerSettings commandSettings mail)
    (server : Http.Server)
    (clock : Summary.Log → Instant)
    (cancellation : Summary.Cancellation) :
    summarize environment input server clock cancellation =
      summarizeMail summarizerSettings commandSettings server clock cancellation mail := by
  have isMail := readMail_eq_ok_iff.mpr ⟨accepted.bytes, accepted.notBlank⟩
  simp [summarize, summarizeSettings, accepted.summarizer, accepted.command, isMail, bind,
    Except.bind]

section Mail

variable {summarizerSettings : Settings.SummarizerSettings}
  {commandSettings : Settings.CommandSettings} {server : Http.Server}
  {clock : Summary.Log → Instant} {cancellation : Summary.Cancellation} {mail : String}

/-- What comes of the summary of a mail that may be cancelled. -/
def resultUnder
    [Url.DomainCoding]
    (summarizerSettings : Settings.SummarizerSettings)
    (commandSettings : Settings.CommandSettings)
    (server : Http.Server)
    (clock : Summary.Log → Instant)
    (cancellation : Summary.Cancellation)
    (mail : String) : Except Summary.Error Summary.Digest :=
  ((summarizerSettings.summarizer server clock).summarize cancellation
    (summaryRequest commandSettings mail) summarizerSettings.session).1

theorem exists_summary_of_exitCode
    [Url.DomainCoding]
    (succeeded : (summarizeMail summarizerSettings commandSettings server clock cancellation
      mail).report.exitCode = 0) :
    ∃ summary, resultUnder summarizerSettings commandSettings server clock cancellation mail =
      .ok summary := by
  unfold resultUnder
  unfold summarizeMail at succeeded
  simp only at succeeded
  split at succeeded
  case h_1 => cases succeeded
  case h_2 summary summarized => exact ⟨summary, summarized⟩

theorem output_eq_lineBreak_iff {text : String} :
    Text.trim text ++ "\n" = "\n" ↔ Text.isBlankText text = true := by
  rw [← Text.trim_eq_empty_iff]
  constructor
  · intro printed
    have characters : (Text.trim text).toList ++ "\n".toList = [] ++ "\n".toList := by
      rw [← String.toList_append, printed]
      rfl
    exact String.toList_eq_nil_iff.mp (List.append_cancel_right characters)
  · intro empty
    rw [empty]
    rfl

theorem prints_of_summary
    [Url.DomainCoding]
    {environment : Settings.Environment}
    {summary : Summary.Digest}
    (isRead : Settings.SummarizerSettings.ofEnvironment environment = .ok summarizerSettings)
    (summarized : resultUnder summarizerSettings commandSettings server clock cancellation mail =
      .ok summary) :
    Prints summarizerSettings server summary
      (summarizeMail summarizerSettings commandSettings server clock cancellation mail) := by
  have same := Summarizer.summarize_never_of_summarize_ok summarized
  have undisturbed :
      summarizeMail summarizerSettings commandSettings server clock cancellation mail =
        summarizeMail summarizerSettings commandSettings server clock .never mail := by
    unfold summarizeMail
    simp only [same]
  have result : resultOf summarizerSettings commandSettings server clock mail = .ok summary := by
    rw [resultOf, same]
    exact summarized
  obtain ⟨⟨usage, report⟩, brought⟩ :=
    (summarizes_summarizeMail isRead commandSettings server clock mail).summary summary result
  rw [undisturbed]
  constructor
  case notEmpty => exact Summarizer.text_ne_empty_of_summarize_ok summarized
  case report => exact ⟨usage, report⟩
  case brought => exact brought
  case nothing_iff =>
    rw [report]
    exact output_eq_lineBreak_iff

end Mail

/-- A run succeeds exactly if it prints a summary. The text that a candidate
brings in its turn is the summary exactly if it is not empty, and then it is
printed, blank or not. -/
theorem summarize_prints
    [Url.DomainCoding]
    (environment : Settings.Environment)
    (input : List UInt8)
    (server : Http.Server)
    (clock : Summary.Log → Instant)
    (cancellation : Summary.Cancellation) :
    let run := summarize environment input server clock cancellation
    (run.report.exitCode = 0 ↔ ∃ summarizerSettings commandSettings mail summary,
      Accepted environment input summarizerSettings commandSettings mail ∧
        Prints summarizerSettings server summary run) ∧
    ∀ summarizerSettings commandSettings mail,
      Accepted environment input summarizerSettings commandSettings mail →
      ∀ tried rest model descriptor reached text,
        let summarizer := summarizerSettings.summarizer server clock
        let request := summaryRequest commandSettings mail
        summarizer.InTurn cancellation request (summarizer.candidates request)
          summarizerSettings.session tried rest model descriptor reached →
        (summarizer.attempt cancellation request descriptor reached).1 = .finished (.ok text) →
          (resultUnder summarizerSettings commandSettings server clock cancellation mail =
              .ok { text, model } ↔ text ≠ "") ∧
            (text ≠ "" → Prints summarizerSettings server { text, model } run) := by
  intro run
  constructor
  · constructor
    · intro succeeded
      rcases refused_or_accepted environment input server clock cancellation with
        ⟨failure, -, isRun⟩ | ⟨-, summarizerSettings, commandSettings, mail, accepted, isRun⟩
      · rw [show run = _ from isRun] at succeeded
        cases succeeded
      · rw [show run = _ from isRun] at succeeded ⊢
        obtain ⟨summary, summarized⟩ := exists_summary_of_exitCode succeeded
        exact ⟨summarizerSettings, commandSettings, mail, summary, accepted,
          prints_of_summary accepted.summarizer summarized⟩
    · rintro ⟨_, _, _, _, -, prints⟩
      obtain ⟨usage, report⟩ := prints.report
      rw [report]
      rfl
  · intro summarizerSettings commandSettings mail accepted tried rest model descriptor reached text
      summarizer request turn attempted
    have summary_iff :
        resultUnder summarizerSettings commandSettings server clock cancellation mail =
          .ok { text, model } ↔ text ≠ "" :=
      turn.summarize_eq_ok_iff rfl attempted
    refine ⟨summary_iff, fun notEmpty => ?_⟩
    rw [show run = _ from accepted.summarize_eq server clock cancellation]
    exact prints_of_summary accepted.summarizer (summary_iff.mpr notEmpty)

/-! ### A run with a pinned model -/

/-- A provider that counts five tokens in a text, and then replies to it. -/
def replying (text : String) : Http.Server := fun earlier _ =>
  let body :=
    if earlier.isEmpty then "\x7b\"totalTokens\":5\x7d"
    else
      "\x7b\"candidates\":[\x7b\"content\":\x7b\"parts\":[\x7b\"text\":\"" ++ text ++
        "\"\x7d]\x7d\x7d]\x7d"
  some
    { delay := 0
      response := some
        { status := 200, headers := [], body := some (Text.Utf8.encode body.toList) } }

def keyedSettings : Settings.SummarizerSettings :=
  { Settings.SummarizerSettings.standard with credential := some "key" }

def pinnedSettings : Settings.CommandSettings :=
  { instruction := Settings.CommandSettings.defaultInstruction
    model := some .gemini25FlashLite
    ceiling := none }

def pinnedDescriptor : Model.Descriptor :=
  { id := .gemini25FlashLite
    providerName := "gemini-2.5-flash-lite"
    ceiling := Model.defaultCeiling }

theorem attempt_replying :
    ((keyedSettings.summarizer (replying " Pay the rent. ") fun _ => .earliest).attempt .never
      (summaryRequest pinnedSettings "mail body") pinnedDescriptor keyedSettings.session).1 =
        .finished (.ok " Pay the rent. ") :=
  Summary.Ended.value?_eq_some_iff.mp (by decide +kernel)

/-- A pinned model replies with a text that has blanks around it. -/
theorem summarize_prints_of_pinned_model :
    let environment := Settings.Environment.ofTexts
      [("GEMINI_API_KEY", "key"), ("INBOX_TODO_MODEL", "gemini-2.5-flash-lite")]
    let input := Text.Utf8.encode "mail body".toList
    let run := summarize environment input (replying " Pay the rent. ") (fun _ => .earliest) .never
    Accepted environment input keyedSettings pinnedSettings "mail body" ∧
      Prints keyedSettings (replying " Pay the rent. ")
        { text := " Pay the rent. ", model := .gemini25FlashLite } run ∧
      run.report.output = "Pay the rent.\n" := by
  intro environment input run
  have accepted : Accepted environment input keyedSettings pinnedSettings "mail body" :=
    { summarizer := toOption_eq_some_iff.mp (by decide +kernel)
      command := toOption_eq_some_iff.mp (by decide +kernel)
      bytes := rfl
      notBlank := by decide +kernel }
  let summarizer := keyedSettings.summarizer (replying " Pay the rent. ") fun _ => .earliest
  let request := summaryRequest pinnedSettings "mail body"
  have turn : summarizer.InTurn .never request (summarizer.candidates request)
      keyedSettings.session [] [] .gemini25FlashLite pinnedDescriptor keyedSettings.session :=
    { split := rfl, reaches := .start, described := rfl, live := rfl }
  have prints : Prints keyedSettings (replying " Pay the rent. ")
      { text := " Pay the rent. ", model := .gemini25FlashLite } run :=
    ((summarize_prints environment input _ _ .never).2 _ _ _ accepted _ _ _ _ _ _ turn
      attempt_replying).2 (by decide)
  obtain ⟨usage, report⟩ := prints.report
  have trimmed : Text.trim " Pay the rent. " = "Pay the rent." := by decide +kernel
  refine ⟨accepted, prints, ?_⟩
  rw [report, trimmed]
  rfl

/-- A model that replies with blanks is taken to have summarized the mail. -/
theorem summarize_prints_nothing_of_blank_reply :
    let environment := Settings.Environment.ofTexts
      [("GEMINI_API_KEY", "key"), ("INBOX_TODO_MODEL", "gemini-2.5-flash-lite")]
    let respond (body : String) : Option Http.Handling :=
      some
        { delay := 0
          response := some
            { status := 200, headers := [], body := some (Text.Utf8.encode body.toList) } }
    let server : Http.Server := fun earlier _ =>
      if earlier.isEmpty then respond "\x7b\"totalTokens\":5\x7d"
      else
        respond ("\x7b\"candidates\":[\x7b\"content\":" ++
          "\x7b\"parts\":[\x7b\"text\":\"   \"\x7d]\x7d\x7d]\x7d")
    let run := summarize environment (Text.Utf8.encode "mail body".toList) server
      (fun _ => .earliest) .never
    run.report.exitCode = 0 ∧ run.report.output = "\n" := by
  decide +kernel

end Precis.Command

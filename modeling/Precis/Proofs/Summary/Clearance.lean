import Precis.Proofs.Summary.Walk

/-!
Contract: what is made sure of before anything is generated.

This module owns `Cleared`: a generation is asked of the model whose turn it is,
for the input that was counted last, and only when the count is within both
ceilings and within what the ledger allows. It holds of every generation of
every run, whatever came before.
-/

namespace Precis.Summary

/-- No event changes the limit of a ledger. -/
theorem Log.replay_limit (ledger : Usage.Ledger) (log : Log) :
    (log.replay ledger).limit = ledger.limit := by
  induction log with
  | nil => rfl
  | cons event before inductionHypothesis =>
      cases event with
      | check now cost verdict =>
          simp only [Log.replay]
          rw [Usage.Ledger.check_limit, inductionHypothesis]
      | record now cost =>
          simp only [Log.replay]
          rw [Usage.Ledger.record_limit, inductionHypothesis]
      | create credential answer => exact inductionHypothesis
      | count call => exact inductionHypothesis
      | generate call => exact inductionHypothesis
      | pause started ended => exact inductionHypothesis

namespace Summarizer

theorem toNat_limitFor
    (summarizer : Summarizer)
    (request : Request)
    (descriptor : Model.Descriptor) :
    (summarizer.limitFor request descriptor).toNat =
      min (request.ceilingOr summarizer.defaultCeiling).toNat descriptor.ceiling.toNat := by
  unfold limitFor
  rw [UInt32.toNat_toUInt64]
  by_cases ordered : request.ceilingOr summarizer.defaultCeiling ≤ descriptor.ceiling
  · have orderedNat := UInt32.le_iff_toNat_le.mp ordered
    rw [show min (request.ceilingOr summarizer.defaultCeiling) descriptor.ceiling =
      request.ceilingOr summarizer.defaultCeiling from if_pos ordered]
    omega
  · have orderedNat := UInt32.le_iff_toNat_le.not.mp ordered
    rw [show min (request.ceilingOr summarizer.defaultCeiling) descriptor.ceiling =
      descriptor.ceiling from if_neg ordered]
    omega

/-- What holds of a generation. It is asked of the given model for a beginning
of the input that was just counted for it. The count is within both ceilings,
and what the ledger held when it was asked leaves room for it, unless there is
no limit. -/
structure Cleared
    (summarizer : Summarizer)
    (ledger : Usage.Ledger)
    (request : Request)
    (descriptor : Model.Descriptor)
    (call : Call Reply)
    (now : Instant)
    (tokens : UInt64)
    (counted : Call UInt64)
    (older : Log) : Prop where
  model_eq : call.model = descriptor.providerName
  begins : call.input.toList <+: (request.instruction ++ "\n" ++ request.text).toList
  counted_model : counted.model = call.model
  counted_input : counted.input = call.input
  counted_answer : counted.answer = some (.ok tokens)
  within_ceilings :
    tokens.toNat ≤
      min (request.ceilingOr summarizer.defaultCeiling).toNat descriptor.ceiling.toNat
  within_limit :
    ledger.limit.toInt ≤ 0 ∨
      ((Log.replay ledger (.count counted :: older)).held now : Int) + tokens.toNat ≤
        ledger.limit.toInt

/-- Every generation of a run belongs to the attempt with the candidate whose
turn it was, follows the count of its input and the check of that count, and is
cleared by both. -/
theorem generate_cleared
    (summarizer : Summarizer)
    (ledger : Usage.Ledger)
    (uses : List Use)
    (call : Call Reply)
    (before : Log)
    (place : .generate call :: before <:+ (summarizer.run (.start ledger) uses).log) :
    ∃ earlier use later tried rest model descriptor reached,
      uses = earlier ++ use :: later ∧
        summarizer.InTurn use.cancellation use.request (summarizer.candidates use.request)
          (summarizer.run (.start ledger) earlier) tried rest model descriptor reached ∧
        reached.log <:+ before ∧
        .generate call :: before <:+
          (summarizer.attempt use.cancellation use.request descriptor reached).2.log ∧
        ∃ now tokens counted older,
          before = .check now tokens (.ok ()) :: .count counted :: older ∧
            summarizer.Cleared ledger use.request descriptor call now tokens counted older := by
  have told : (Session.start ledger).ledger = (Session.start ledger).log.replay ledger := rfl
  have course := (summarizer.run_course (.start ledger) uses).told told
  have kept := (course.rule_of_suffix place (List.nil_suffix)).1
  cases kept with
  | @attempt earlier use later tried rest model descriptor reached _ _ split turn begun within
      kept =>
      refine ⟨earlier, use, later, tried, rest, model, descriptor, reached, split, turn, begun,
        within, ?_⟩
      cases kept with
      | prepare kept => cases kept
      | @generate tokens counted _ now older modelEq measures =>
          refine ⟨now, tokens, counted, older, rfl, ?_⟩
          -- The verdict of the check stands in the log, so its ledger is looked up there.
          have checkPlace := (List.suffix_cons _ _).trans place
          obtain ⟨-, found, left, foundLog, foundLedger, happens⟩ :=
            course.rule_of_suffix checkPlace (List.nil_suffix)
          have passed := happens.verdict_eq.symm
          rw [foundLedger, Usage.Ledger.check_eq_ok_iff, Log.replay_limit] at passed
          have withinLimit := UInt64.le_iff_toNat_le.mp measures.le_limit
          rw [toNat_limitFor] at withinLimit
          exact {
            model_eq := modelEq
            begins := measures.begins
            counted_model := measures.model_eq.trans modelEq.symm
            counted_input := measures.input_eq
            counted_answer := measures.answer_eq
            within_ceilings := withinLimit
            within_limit := passed
          }

/-- A summarizer of the default catalog whose models count characters and answer
at once with a given reply. -/
def countingCharacters (reply : Reply) : Summarizer where
  credential := some "key"
  defaultCeiling := 100
  backoff := ⟨0⟩
  catalog := .gemini
  surroundings :=
    { create := fun _ _ => .ok ()
      count := fun _ _ _ input => { delay := 0, result := .ok (.ofNat input.length) }
      generate := fun _ _ _ _ => { delay := 0, result := .ok reply }
      clock := fun _ => .earliest }

/-- A request with an input of fourteen characters, of which ten are allowed. -/
def tightUse : Use where
  request := ⟨.gemini, "Sum up", "A text.", none, some 10⟩
  cancellation := .never

/-- The input is cut to nine characters, and that is all the ledger leaves room for. -/
theorem generate_cleared_after_cut :
    ∃ call before,
      .generate call :: before <:+
          ((countingCharacters (.ofText "Text.")).run (.start (.empty ⟨0⟩ 9)) [tightUse]).log ∧
        call.input = "Sum up\nA " ∧
        ∃ now tokens counted older,
          before = .check now tokens (.ok ()) :: .count counted :: older ∧
            counted.input = call.input ∧ counted.answer = some (.ok tokens) := by
  have place :
      [.generate ⟨"gemini-2.5-flash-lite", "Sum up\nA ", 0, 0, some (.ok (.ofText "Text."))⟩,
          .check .earliest 9 (.ok ()),
          .count ⟨"gemini-2.5-flash-lite", "Sum up\nA ", 0, 0, some (.ok 9)⟩,
          .count ⟨"gemini-2.5-flash-lite", "Sum up\nA text.", 0, 0, some (.ok 14)⟩,
          .create "key" (.ok ())] <:+
        ((countingCharacters (.ofText "Text.")).run (.start (.empty ⟨0⟩ 9)) [tightUse]).log :=
    ⟨[.record .earliest 9], by with_unfolding_all rfl⟩
  obtain ⟨_, _, _, _, _, _, _, _, _, _, _, _, now, tokens, counted, older, beforeEq, cleared⟩ :=
    generate_cleared _ _ _ _ _ place
  exact ⟨_, _, place, rfl, now, tokens, counted, older, beforeEq, cleared.counted_input,
    cleared.counted_answer⟩

end Summarizer

end Precis.Summary

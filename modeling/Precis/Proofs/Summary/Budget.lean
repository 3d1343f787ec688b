import Precis.Proofs.Summary.Accounting
import Precis.Proofs.Summary.Clearance

/-!
Contract: how much a ledger comes to hold while one summarizer writes to it.

This module owns the bound on the sum of the costs in a ledger with an enforced
limit. A check leaves room for what was counted, and nothing but the record of
the same exchange is added before the next check. So the sum passes the limit
only by what the exchange cost more than it was counted for, and it falls back
from there: no event but a record makes it grow. The clock may show anything.
-/

namespace Precis.Summary

/-- The exact sum of the costs that a ledger holds after the events of a log. -/
def Log.stored (ledger : Usage.Ledger) (log : Log) : Nat :=
  Usage.costOf (log.replay ledger).records

theorem Log.stored_le_of_recordless
    {ledger : Usage.Ledger}
    {event : Event}
    {before : Log}
    (recordless : ∀ now cost, event ≠ .record now cost) :
    Log.stored ledger (event :: before) ≤ Log.stored ledger before :=
  Usage.costOf_le_of_suffix (Log.replay_records_suffix ledger before recordless)

/-- What was counted last is what the input was last found to have. -/
theorem Log.measured_of_counted
    {counted : Call UInt64}
    {now : Instant}
    {cost tokens : UInt64}
    {verdict : Except Usage.Exceeded Unit}
    (answered : counted.answer = some (.ok tokens))
    (older : Log) :
    Log.measured counted.input (.check now cost verdict :: .count counted :: older) =
      some tokens := by
  simp [Log.measured, answered]

/-- The record after a check that passed takes the sum over the limit by no more
than it costs beyond what was asked for. -/
theorem Log.stored_record_le
    {ledger : Usage.Ledger}
    {call : Call Reply}
    {checked now : Instant}
    {tokens cost : UInt64}
    {older : Log}
    (enforced : 0 < ledger.limit.toInt)
    (passed : ((older.replay ledger).check checked tokens).1 = .ok ()) :
    (Log.stored ledger
        (.record now cost :: .generate call :: .check checked tokens (.ok ()) :: older) : Int) ≤
      ledger.limit.toInt + max 0 ((cost.toNat : Int) - tokens.toNat) := by
  have limitEq := Log.replay_limit ledger older
  have room := Usage.Ledger.costOf_check_le (by rw [limitEq]; exact enforced) passed
  rw [limitEq] at room
  have grown : Log.stored ledger
      (.record now cost :: .generate call :: .check checked tokens (.ok ()) :: older) =
      ((older.replay ledger).check checked tokens).2.held now + cost.toNat :=
    Usage.Ledger.costOf_record _ now cost
  have shrunk := ((older.replay ledger).check checked tokens).2.held_le now
  omega

namespace Summarizer

variable {summarizer : Summarizer} {start : Session} {uses : List Use} {before : Log}

/-- In a run a record follows the generation that it pays for, and this follows a
check that passed. -/
theorem RunRule.before_record
    {now : Instant}
    {cost : UInt64}
    (kept : summarizer.RunRule start uses (.record now cost) before) :
    ∃ call reply checked tokens older,
      before = .generate call :: .check checked tokens (.ok ()) :: older ∧
        call.answer = some (.ok reply) ∧ cost = reply.usage.getD tokens := by
  cases kept with
  | attempt split turn begun place kept =>
      cases kept with
      | prepare kept => cases kept
      | record checked _ older brings => exact ⟨_, _, _, _, _, rfl, brings.1, rfl⟩

/-- In a run a generation follows the check of its input's count, and this
follows the count. -/
theorem RunRule.before_generate
    {call : Call Reply}
    (kept : summarizer.RunRule start uses (.generate call) before) :
    ∃ checked tokens counted older,
      before = .check checked tokens (.ok ()) :: .count counted :: older ∧
        counted.input = call.input ∧ counted.answer = some (.ok tokens) := by
  cases kept with
  | attempt split turn begun place kept =>
      cases kept with
      | prepare kept => cases kept
      | generate checked older modelEq measures =>
          exact ⟨_, _, _, _, rfl, measures.input_eq, measures.answer_eq⟩

/-- A record of a run, with the exchange that it pays for: an input was counted,
the count passed the check, and the generation from that input brought a reply. -/
structure Pays
    (ledger : Usage.Ledger)
    (cost : UInt64)
    (call : Call Reply)
    (reply : Reply)
    (checked : Instant)
    (tokens : UInt64)
    (counted : Call UInt64)
    (older : Log) : Prop where
  counted_input : counted.input = call.input
  counted_answer : counted.answer = some (.ok tokens)
  passed : ((Log.replay ledger (.count counted :: older)).check checked tokens).1 = .ok ()
  answered : call.answer = some (.ok reply)
  cost_eq : cost = reply.usage.getD tokens

/-- Each record of a run pays for the exchange right before it. -/
theorem exists_pays
    {ledger : Usage.Ledger}
    {now : Instant}
    {cost : UInt64}
    (place : .record now cost :: before <:+ (summarizer.run (.start ledger) uses).log) :
    ∃ call reply checked tokens counted older,
      before = .generate call :: .check checked tokens (.ok ()) :: .count counted :: older ∧
        Pays ledger cost call reply checked tokens counted older := by
  have course := summarizer.run_course (.start ledger) uses
  obtain ⟨call, reply, checked, tokens, older, rfl, answered, costEq⟩ :=
    (course.rule_of_suffix place List.nil_suffix).before_record
  have generated := (List.suffix_cons _ _).trans place
  obtain ⟨_, _, counted, older, same, countedInput, countedAnswer⟩ :=
    (course.rule_of_suffix generated List.nil_suffix).before_generate
  obtain ⟨checkEq, rfl⟩ := List.cons.inj same
  obtain ⟨rfl, rfl, -⟩ := Event.check.inj checkEq
  have passed := course.verdict_of_suffix rfl ((List.suffix_cons _ _).trans generated)
    List.nil_suffix
  exact ⟨call, reply, checked, tokens, counted, older, rfl,
    countedInput, countedAnswer, passed.symm, answered, costEq⟩

/-- Where no response reports more than its input was counted for, the sum in a
ledger that begins within an enforced limit stays there. -/
theorem stored_le_limit
    {ledger : Usage.Ledger}
    (enforced : 0 < ledger.limit.toInt)
    (begins : (Usage.costOf ledger.records : Int) ≤ ledger.limit.toInt)
    (modest : ∀ call reply reported tokens before,
      .generate call :: before <:+ (summarizer.run (.start ledger) uses).log →
        call.answer = some (.ok reply) → reply.usage = some reported →
          Log.measured call.input before = some tokens → reported ≤ tokens)
    {past : Log}
    (place : past <:+ (summarizer.run (.start ledger) uses).log) :
    (Log.stored ledger past : Int) ≤ ledger.limit.toInt := by
  induction past with
  | nil => exact begins
  | cons event before inductionHypothesis =>
      have earlier := inductionHypothesis ((List.suffix_cons _ _).trans place)
      by_cases recordless : ∀ now cost, event ≠ .record now cost
      · have shrunk : Log.stored ledger (event :: before) ≤ Log.stored ledger before :=
          Log.stored_le_of_recordless recordless
        omega
      · push Not at recordless
        obtain ⟨now, cost, rfl⟩ := recordless
        obtain ⟨call, reply, checked, tokens, counted, older, rfl, pays⟩ := exists_pays place
        have bound : (Log.stored ledger (.record now cost :: .generate call ::
              .check checked tokens (.ok ()) :: .count counted :: older) : Int) ≤
            ledger.limit.toInt + max 0 ((cost.toNat : Int) - tokens.toNat) :=
          Log.stored_record_le enforced pays.passed
        -- Without a report the cost is the count itself.
        have costLe : cost ≤ tokens := by
          rw [pays.cost_eq]
          cases reported : reply.usage with
          | none => exact UInt64.le_refl _
          | some total =>
              have measured : Log.measured counted.input
                  (.check checked tokens (.ok ()) :: .count counted :: older) = some tokens :=
                Log.measured_of_counted pays.counted_answer older
              rw [pays.counted_input] at measured
              exact modest call reply total tokens _ ((List.suffix_cons _ _).trans place)
                pays.answered reported measured
        have costNat := UInt64.le_iff_toNat_le.mp costLe
        omega

/-- A ledger with an enforced limit begins without records and serves one run of
requests. Right after a record it holds at most the limit and what the exchange
cost beyond its count; no other event makes the sum grow. Where no response
reports more than its input was counted for, the sum is never over the limit. -/
theorem run_within_budget
    (summarizer : Summarizer)
    (window : Duration)
    (limit : Int64)
    (uses : List Use)
    (enforced : 0 < limit.toInt) :
    let ledger := Usage.Ledger.empty window limit
    let final := summarizer.run (.start ledger) uses
    final.ledger = final.log.replay ledger ∧
      (∀ now cost before, .record now cost :: before <:+ final.log →
        ∃ call reply checked tokens counted older,
          before = .generate call :: .check checked tokens (.ok ()) :: .count counted :: older ∧
            Pays ledger cost call reply checked tokens counted older ∧
            (Log.stored ledger (.record now cost :: before) : Int) ≤
              limit.toInt + max 0 ((cost.toNat : Int) - tokens.toNat)) ∧
      (∀ event before, (∀ now cost, event ≠ .record now cost) →
        Log.stored ledger (event :: before) ≤ Log.stored ledger before) ∧
      ((∀ call reply reported tokens before, .generate call :: before <:+ final.log →
          call.answer = some (.ok reply) → reply.usage = some reported →
            Log.measured call.input before = some tokens → reported ≤ tokens) →
        ∀ past, past <:+ final.log → (Log.stored ledger past : Int) ≤ limit.toInt) := by
  intro ledger final
  refine ⟨(summarizer.run_course (.start ledger) uses).ledger_eq_replay rfl, ?_, ?_, ?_⟩
  · intro now cost before place
    obtain ⟨call, reply, checked, tokens, counted, older, rfl, pays⟩ := exists_pays place
    exact ⟨call, reply, checked, tokens, counted, older, rfl, pays,
      Log.stored_record_le enforced pays.passed⟩
  · intro event before recordless
    exact Log.stored_le_of_recordless recordless
  · intro modest past place
    have begins : (Usage.costOf ledger.records : Int) ≤ ledger.limit.toInt := Int.le_of_lt enforced
    exact stored_le_limit enforced begins modest place

/-- A reply that reports a cost of twelve. -/
def dearReply : Reply :=
  { Reply.ofText "Text." with usage := some 12 }

/-- Nine characters fit into a limit of nine, and their exchange is reported to
have cost twelve: the ledger then holds as much as the bound allows. -/
theorem run_within_budget_after_overshoot :
    0 < (9 : Int64).toInt ∧
      let ledger := Usage.Ledger.empty ⟨0⟩ 9
      let final := (countingCharacters dearReply).run (.start ledger) [tightUse]
      ∃ before tokens, .record .earliest 12 :: before <:+ final.log ∧
        (Log.stored ledger (.record .earliest 12 :: before) : Int) ≤
          9 + max 0 ((12 : Int) - tokens) ∧
        tokens = 9 ∧ Log.stored ledger (.record .earliest 12 :: before) = 12 := by
  refine ⟨by decide, ?_⟩
  intro ledger final
  have place :
      [.record .earliest 12,
          .generate ⟨"gemini-2.5-flash-lite", "Sum up\nA ", 0, 0, some (.ok dearReply)⟩,
          .check .earliest 9 (.ok ()),
          .count ⟨"gemini-2.5-flash-lite", "Sum up\nA ", 0, 0, some (.ok 9)⟩,
          .count ⟨"gemini-2.5-flash-lite", "Sum up\nA text.", 0, 0, some (.ok 14)⟩,
          .create "key" (.ok ())] <:+ final.log :=
    ⟨[], by with_unfolding_all rfl⟩
  obtain ⟨-, records, -, -⟩ :=
    run_within_budget (countingCharacters dearReply) ⟨0⟩ 9 [tightUse] (by decide)
  obtain ⟨_, _, _, tokens, _, _, beforeEq, pays, bound⟩ := records _ _ _ place
  have nine : tokens = 9 := by
    simp only [List.cons.injEq, Event.check.injEq] at beforeEq
    exact beforeEq.2.1.2.1.symm
  subst nine
  exact ⟨_, 9, place, bound, rfl, by decide⟩

end Summarizer

end Precis.Summary

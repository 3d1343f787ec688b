import Precis.Proofs.Summary.Accounting
import Precis.Proofs.Summary.Clearance

/-!
Contract: what a failed request costs.

This module owns the exact answer. An empty text counts as a failed attempt only
after it was recorded, so a request that fails has one record for each empty
text that a model answered with, and no other. Where there was none, the ledger
is as if the request had never been made.

Does not own: the cost of a record.
-/

namespace Precis.Summary

/-- A generation that was answered with an empty text. -/
def Call.BringsEmptyText (call : Call Reply) : Prop :=
  ∃ reply, call.answer = some (.ok reply) ∧ reply.firstText = .ok ""

/-- Each generation that brought an empty text is followed by a record, and no
record follows anything else. -/
structure Log.PaysForEmptyTexts (log : Log) : Prop where
  only :
    ∀ now cost before, .record now cost :: before <:+ log →
      ∃ call older, before = .generate call :: older ∧ call.BringsEmptyText
  each :
    ∀ call before, .generate call :: before <:+ log → call.BringsEmptyText →
      ∃ now cost, .record now cost :: .generate call :: before <:+ log

/-- An event that is no record and brings no empty text. -/
def Event.CostsNothing : Event → Prop
  | .record _ _ => False
  | .generate call => ¬ call.BringsEmptyText
  | _ => True

namespace Log

theorem PaysForEmptyTexts.nil : PaysForEmptyTexts [] where
  only := by simp
  each := by simp

theorem PaysForEmptyTexts.cons
    {log : Log}
    {event : Event}
    (pays : log.PaysForEmptyTexts)
    (costsNothing : event.CostsNothing) :
    PaysForEmptyTexts (event :: log) where
  only := by
    intro now cost before place
    rcases List.suffix_cons_iff.mp place with newest | older
    · obtain ⟨rfl, -⟩ := List.cons.inj newest
      contradiction
    · exact pays.only now cost before older
  each := by
    intro call before place empty
    rcases List.suffix_cons_iff.mp place with newest | older
    · obtain ⟨rfl, -⟩ := List.cons.inj newest
      contradiction
    · obtain ⟨now, cost, recorded⟩ := pays.each call before older empty
      exact ⟨now, cost, recorded.trans (List.suffix_cons _ _)⟩

theorem PaysForEmptyTexts.record
    {log : Log}
    {call : Call Reply}
    (pays : log.PaysForEmptyTexts)
    (empty : call.BringsEmptyText)
    (now : Instant)
    (cost : UInt64) :
    PaysForEmptyTexts (.record now cost :: .generate call :: log) where
  only := by
    intro now' cost' before place
    rcases List.suffix_cons_iff.mp place with newest | older
    · exact ⟨call, log, (List.cons.inj newest).2, empty⟩
    · rcases List.suffix_cons_iff.mp older with generated | earlier
      · have same := (List.cons.inj generated).1
        contradiction
      · exact pays.only now' cost' before earlier
  each := by
    intro call' before place empty'
    rcases List.suffix_cons_iff.mp place with newest | older
    · have same := (List.cons.inj newest).1
      contradiction
    · rcases List.suffix_cons_iff.mp older with generated | earlier
      · rw [generated]
        exact ⟨now, cost, List.suffix_refl _⟩
      · obtain ⟨recordedAt, recordedCost, recorded⟩ := pays.each call' before earlier empty'
        exact ⟨recordedAt, recordedCost,
          recorded.trans ((List.suffix_cons _ _).trans (List.suffix_cons _ _))⟩

theorem exists_suffix_of_mem {event : Event} {log : Log} (member : event ∈ log) :
    ∃ before, event :: before <:+ log := by
  obtain ⟨newer, before, rfl⟩ := List.append_of_mem member
  exact ⟨before, newer, rfl⟩

theorem recorded_eq_nil_iff {log : Log} :
    log.recorded = [] ↔ ∀ now cost, .record now cost ∉ log := by
  induction log with
  | nil => simp [recorded]
  | cons event before inductionHypothesis =>
      cases event with
      | record now cost =>
          refine ⟨by simp [recorded], fun recordless => ?_⟩
          exact absurd List.mem_cons_self (recordless now cost)
      | create credential answer => simp [recorded, inductionHypothesis]
      | count call => simp [recorded, inductionHypothesis]
      | check now cost verdict => simp [recorded, inductionHypothesis]
      | generate call => simp [recorded, inductionHypothesis]
      | pause started ended => simp [recorded, inductionHypothesis]

/-- Nothing was recorded exactly when no model answered with an empty text. -/
theorem PaysForEmptyTexts.recorded_eq_nil_iff {log : Log} (pays : log.PaysForEmptyTexts) :
    log.recorded = [] ↔ ∀ call, .generate call ∈ log → ¬ call.BringsEmptyText := by
  rw [Log.recorded_eq_nil_iff]
  constructor
  · intro recordless call member empty
    obtain ⟨before, place⟩ := exists_suffix_of_mem member
    obtain ⟨now, cost, recorded⟩ := pays.each call before place empty
    exact recordless now cost (recorded.subset List.mem_cons_self)
  · intro textful now cost member
    obtain ⟨before, place⟩ := exists_suffix_of_mem member
    obtain ⟨call, older, rfl, empty⟩ := pays.only now cost before place
    have generated : .generate call ∈ log := place.subset (by simp)
    exact textful call generated empty

/-- Without a record a log leaves the window as it was, for every look at it that
is not earlier than a check in the log. -/
theorem prune_replay
    {ledger : Usage.Ledger}
    {log : Log}
    {later : Instant}
    (recordless : ∀ now cost, .record now cost ∉ log)
    (past : ∀ now cost verdict, .check now cost verdict ∈ log →
      now.nanoseconds ≤ later.nanoseconds) :
    (log.replay ledger).prune later = ledger.prune later := by
  induction log with
  | nil => rfl
  | cons event before inductionHypothesis =>
      have unchanged := inductionHypothesis
        (fun now cost member => recordless now cost (List.mem_cons_of_mem _ member))
        (fun now cost verdict member => past now cost verdict (List.mem_cons_of_mem _ member))
      cases event with
      | check now cost verdict =>
          have ordered := past now cost verdict List.mem_cons_self
          simp only [replay]
          rw [Usage.Ledger.prune_check _ cost ordered]
          exact unchanged
      | record now cost => exact absurd List.mem_cons_self (recordless now cost)
      | create credential answer => exact unchanged
      | count call => exact unchanged
      | generate call => exact unchanged
      | pause started ended => exact unchanged

end Log

namespace Summarizer

/-! ### Failed attempts -/

/-- Since it left `start`, a session has recorded nothing but empty texts. -/
def PaysSince (start session : Session) : Prop :=
  ∃ added : Log, session.log = added ++ start.log ∧ added.PaysForEmptyTexts

namespace PaysSince

variable {summarizer : Summarizer} {start session after : Session}

theorem refl (start : Session) : PaysSince start start :=
  ⟨[], rfl, .nil⟩

theorem cons
    {event : Event}
    (pays : PaysSince start session)
    (logEq : after.log = event :: session.log)
    (costsNothing : event.CostsNothing) :
    PaysSince start after := by
  obtain ⟨added, split, addedPays⟩ := pays
  refine ⟨event :: added, ?_, addedPays.cons costsNothing⟩
  rw [logEq, split]
  rfl

theorem record
    {call : Call Reply}
    {now : Instant}
    {cost : UInt64}
    (pays : PaysSince start session)
    (logEq : after.log = .record now cost :: .generate call :: session.log)
    (empty : call.BringsEmptyText) :
    PaysSince start after := by
  obtain ⟨added, split, addedPays⟩ := pays
  refine ⟨.record now cost :: .generate call :: added, ?_, addedPays.record empty now cost⟩
  rw [logEq, split]
  rfl

theorem prepare
    {model original : String}
    (pays : PaysSince start session)
    (course : summarizer.Course (PrepareRule model original) session after) :
    PaysSince start after := by
  refine course.invariant (P := PaysSince start) ?_ pays
  intro before event left happens kept beforePays
  cases kept with
  | create credential answer => exact beforePays.cons happens.log_eq trivial
  | count call _ modelEq begins => exact beforePays.cons happens.log_eq trivial

theorem generates
    {model input : String}
    {tokens : UInt64}
    {ended : Ended String}
    (pays : PaysSince start session)
    (generates : summarizer.Generates model input tokens session ended after)
    (textless : ∀ text, ended = .finished (.ok text) → text = "") :
    PaysSince start after := by
  have checked : PaysSince start (summarizer.check tokens session).2 := pays.cons rfl trivial
  cases generates with
  | refused verdict => exact checked
  | abandoned verdict placed modelEq inputEq unanswered =>
      refine checked.cons rfl ?_
      rintro ⟨reply, replied, -⟩
      simp [unanswered] at replied
  | failed verdict placed modelEq inputEq answered =>
      refine checked.cons rfl ?_
      rintro ⟨reply, replied, -⟩
      simp [answered] at replied
  | contentless verdict placed modelEq inputEq answered missing =>
      refine checked.cons rfl ?_
      rintro ⟨reply, replied, empty⟩
      rw [answered] at replied
      obtain rfl := Except.ok.inj (Option.some.inj replied)
      rw [missing] at empty
      contradiction
  | @recorded call reply text verdict placed modelEq inputEq answered found =>
      obtain rfl := textless text rfl
      exact checked.record rfl ⟨reply, answered, found⟩

theorem attempt
    {cancellation : Cancellation}
    {request : Request}
    {descriptor : Model.Descriptor}
    (pays : PaysSince start session)
    (textless : ∀ text,
      (summarizer.attempt cancellation request descriptor session).1 = .finished (.ok text) →
        text = "") :
    PaysSince start (summarizer.attempt cancellation request descriptor session).2 := by
  cases summarizer.attempt_attempts cancellation request descriptor session with
  | stopped _ course => exact pays.prepare course
  | generated course logEq measures generates =>
      exact (pays.prepare course).generates generates textless

theorem pause
    (pays : PaysSince start session)
    (cancellation : Cancellation)
    (length : Duration) :
    PaysSince start (session.pause cancellation length).2 := by
  obtain ⟨ended, later, pauseEq⟩ := session.pause_eq cancellation length
  rw [pauseEq]
  exact pays.cons rfl trivial

end PaysSince

/-! ### Failed requests -/

section Failing

variable {summarizer : Summarizer} {cancellation : Cancellation} {request : Request}
  {start reached : Session} {descriptor : Model.Descriptor}

theorem Fails.eq_empty
    {outcome : Except Error String}
    {ended : Ended String}
    (fails : Fails outcome)
    (attempted : ended = .finished outcome)
    (text : String)
    (brought : ended = .finished (.ok text)) :
    text = "" := by
  rw [attempted] at brought
  obtain rfl := Ended.finished.inj brought
  exact fails

theorem Reaches.paysSince
    {tried : List Model.Id}
    (reaches : summarizer.Reaches cancellation request start tried reached) :
    PaysSince start reached := by
  induction reaches with
  | start => exact .refl start
  | pass reaches described live attempted fails waited inductionHypothesis =>
      exact (inductionHypothesis.attempt (fails.eq_empty attempted)).pause _ _

theorem Stops.paysSince
    {all : List Model.Id}
    {cause : Error}
    {final : Session}
    (stops : summarizer.Stops cancellation request all start (.error cause) final) :
    PaysSince start final := by
  cases stops with
  | empty none => exact .refl start
  | unmapped split reaches undescribed => exact reaches.paysSince
  | forestalled split reaches described cancelled => exact reaches.paysSince
  | abandoned turn attempted =>
      refine turn.reaches.paysSince.attempt ?_
      intro text brought
      simp [attempted] at brought
  | settled turn attempted settles =>
      refine turn.reaches.paysSince.attempt ?_
      intro text brought
      cases settles with
      | fatal fatal => simp [attempted] at brought
  | exhausted turn attempted fails =>
      exact turn.reaches.paysSince.attempt (fails.eq_empty attempted)
  | interrupted turn attempted fails interrupted =>
      exact (turn.reaches.paysSince.attempt (fails.eq_empty attempted)).pause _ _

end Failing

/-- A request that fails has recorded one exchange for each empty text that a
model answered with, and nothing else. Where there was no empty text, nothing
was recorded, and from the last check on, every look at the ledger shows what it
would show if the request had not been made. -/
theorem failed_request_pays
    (summarizer : Summarizer)
    (cancellation : Cancellation)
    (request : Request)
    (start : Session)
    {cause : Error}
    (failed : (summarizer.summarize cancellation request start).1 = .error cause) :
    let final := (summarizer.summarize cancellation request start).2
    ∃ added : Log,
      final.log = added ++ start.log ∧ final.ledger = added.replay start.ledger ∧
        added.PaysForEmptyTexts ∧
        (added.recorded = [] ↔ ∀ call, .generate call ∈ added → ¬ call.BringsEmptyText) ∧
        (added.recorded = [] →
          ∀ later : Instant,
            (∀ now cost verdict, .check now cost verdict ∈ added →
              now.nanoseconds ≤ later.nanoseconds) →
            final.ledger.usage later = start.ledger.usage later) := by
  intro final
  have course := summarizer.run_course start [⟨request, cancellation⟩]
  obtain ⟨added, logEq, ledgerEq⟩ := course.exists_added
  have paysSince : PaysSince start final := by
    cases supported : summarizer.catalog.supports request.family with
    | false =>
        have finalEq : final = start :=
          congrArg Prod.snd (summarizer.summarize_unsupported cancellation _ _ supported)
        rw [finalEq]
        exact .refl start
    | true =>
        have stops := summarizer.summarize_stops cancellation request start supported
        rw [failed] at stops
        exact stops.paysSince
  obtain ⟨spent, split, pays⟩ := paysSince
  have same : spent = added := List.append_cancel_right (split.symm.trans logEq)
  subst same
  refine ⟨spent, logEq, ledgerEq, pays, pays.recorded_eq_nil_iff, ?_⟩
  intro recordless later past
  have pruned : final.ledger.prune later = start.ledger.prune later := by
    rw [show final.ledger = spent.replay start.ledger from ledgerEq]
    exact Log.prune_replay (Log.recorded_eq_nil_iff.mp recordless) past
  unfold Usage.Ledger.usage
  rw [pruned]

/-- A request for one model alone, with an input of fourteen characters. -/
def pinnedRequest : Request :=
  ⟨.gemini, "Sum up", "A text.", some .gemini25Flash, none⟩

/-- The only model answers with an empty text: the request fails, and the ledger,
which was empty before, holds the exchange. -/
theorem empty_text_recorded :
    let start := Session.start (.empty ⟨0⟩ 0)
    let ended := (countingCharacters (.ofText "")).summarize .never pinnedRequest start
    ended.1 = .error (.allModelsFailed ["gemini-2.5-flash"]) ∧
      start.ledger.records = [] ∧ ended.2.ledger.records = [⟨.earliest, 14⟩] ∧
      (start.ledger.usage .earliest).1 = 0 ∧ (ended.2.ledger.usage .earliest).1 = 14 := by
  refine ⟨?_, rfl, ?_, by decide, ?_⟩
  · with_unfolding_all rfl
  · with_unfolding_all rfl
  · with_unfolding_all rfl

/-- The record in that ledger is the one for the empty text. -/
theorem failed_request_pays_for_empty_text :
    let start := Session.start (.empty ⟨0⟩ 0)
    let ended := (countingCharacters (.ofText "")).summarize .never pinnedRequest start
    ended.1 = .error (.allModelsFailed ["gemini-2.5-flash"]) ∧
      ∃ added : Log, ended.2.log = added ++ start.log ∧ added.PaysForEmptyTexts ∧
        added.recorded = [⟨.earliest, 14⟩] := by
  intro start ended
  have failed : ended.1 = .error (.allModelsFailed ["gemini-2.5-flash"]) := by
    with_unfolding_all rfl
  obtain ⟨added, logEq, -, pays, -, -⟩ :=
    failed_request_pays (countingCharacters (.ofText "")) .never pinnedRequest start failed
  refine ⟨failed, added, logEq, pays, ?_⟩
  have logged : added = ended.2.log := (List.append_nil added).symm.trans logEq.symm
  rw [logged]
  with_unfolding_all rfl

end Summarizer

end Precis.Summary

import Mathlib.Algebra.BigOperators.Group.Finset.Piecewise
import Mathlib.Algebra.Order.BigOperators.Ring.Finset
import Mathlib.Data.Fintype.Card
import Precis.Proofs.Usage.Chronicle

/-!
Contract: one ledger that several clients share.

This module owns the interleavings of clients each of which records a cost only
after its own check of that cost has passed, and the bound on the sum within
the window that this is good for. A check and the record that it clears are two
operations. What other clients record in between is not covered by the check,
so the sum may pass the limit, but by no more than that.
-/

namespace Precis.Usage

/-- A step, and the client that takes it. -/
structure Turn (γ : Type) where
  client : γ
  step : Step

namespace Turn

variable {γ : Type}

/-- A client checks a cost. -/
def check (client : γ) (now : Instant) (cost : UInt64) : Turn γ :=
  { client, step := { now, operation := .check cost } }

/-- A client records a cost. -/
def record (client : γ) (now : Instant) (cost : UInt64) : Turn γ :=
  { client, step := { now, operation := .record cost } }

/-- The cost that a turn records. -/
def recorded (turn : Turn γ) : Nat :=
  match turn.step.operation with
  | .record cost => cost.toNat
  | _ => 0

end Turn

section Sharing

variable {γ : Type}

/-- The sum of the costs that turns record. -/
def recordedIn (turns : List (Turn γ)) : Nat :=
  (turns.map Turn.recorded).sum

/-- The ledger after turns, if it began without records. -/
def ledgerAfter (window : Duration) (limit : Int64) (turns : List (Turn γ)) : Ledger :=
  (runSteps Ledger.perform (.empty window limit) (turns.map Turn.step)).2

/-- Everything that was recorded in turns. -/
def chronicleAfter (window : Duration) (limit : Int64) (turns : List (Turn γ)) : Chronicle :=
  (runSteps Chronicle.perform (.empty window limit) (turns.map Turn.step)).2

/-- The clock does not go back from turn to turn. -/
def Nondecreasing (turns : List (Turn γ)) : Prop :=
  turns.Pairwise fun earlier later => earlier.step.now.nanoseconds ≤ later.step.now.nanoseconds

/-- Before a client records a cost, its own check of that cost passed. `between`
is what happened since. -/
structure Clears
    (window : Duration)
    (limit : Int64)
    (client : γ)
    (cost : UInt64)
    (before earlier : List (Turn γ))
    (checked : Instant)
    (between : List (Turn γ)) : Prop where
  split : before = earlier ++ .check client checked cost :: between
  passed : ((ledgerAfter window limit earlier).check checked cost).1 = .ok ()

/-- Each record is cleared by a check, since which only what is allowed happened. -/
def EachCleared
    (window : Duration)
    (limit : Int64)
    (allowed : γ → List (Turn γ) → Prop)
    (turns : List (Turn γ)) : Prop :=
  ∀ before client now cost after, turns = before ++ .record client now cost :: after →
    ∃ earlier checked between,
      Clears window limit client cost before earlier checked between ∧ allowed client between

/-! ### What is within the window -/

theorem entrySum_append (older newer : List Entry) :
    entrySum (older ++ newer) = entrySum older + entrySum newer := by
  induction older with
  | nil => simp only [List.nil_append, entrySum, Nat.zero_add]
  | cons head tail inductionHypothesis =>
      simp only [List.cons_append, entrySum, inductionHypothesis, Nat.add_assoc]

theorem entrySum_filter_le
    {chosen wider : Entry → Bool}
    (implies : ∀ entry, chosen entry = true → wider entry = true)
    (entries : List Entry) :
    entrySum (entries.filter chosen) ≤ entrySum (entries.filter wider) := by
  induction entries with
  | nil => exact Nat.le_refl _
  | cons head tail inductionHypothesis =>
      by_cases headChosen : chosen head = true
      · rw [List.filter_cons_of_pos headChosen, List.filter_cons_of_pos (implies head headChosen)]
        exact Nat.add_le_add_left inductionHypothesis _
      · rw [List.filter_cons_of_neg headChosen]
        by_cases headWider : wider head = true
        · rw [List.filter_cons_of_pos headWider]
          exact Nat.le_trans inductionHypothesis (Nat.le_add_left _ _)
        · rw [List.filter_cons_of_neg headWider]
          exact inductionHypothesis

/-- What lies within the window only gets less as time passes. -/
theorem Chronicle.usage_anti (chronicle : Chronicle) {now later : Int} (passes : now ≤ later) :
    chronicle.usage later ≤ chronicle.usage now := by
  refine entrySum_filter_le (fun entry within => ?_) chronicle.entries
  rw [decide_eq_true_eq] at within ⊢
  omega

/-- A turn adds no more than it records. -/
theorem Chronicle.usage_perform_le (chronicle : Chronicle) (turn : Turn γ) (now : Int) :
    (chronicle.perform turn.step).2.usage now ≤ chronicle.usage now + turn.recorded := by
  obtain ⟨client, moment, operation⟩ := turn
  cases operation with
  | record cost =>
      have added : (chronicle.perform ⟨moment, .record cost⟩).2.usage now ≤
          chronicle.usage now + entrySum [⟨moment.nanoseconds, cost.toNat⟩] := by
        unfold Chronicle.usage Chronicle.live
        simp only [perform]
        rw [List.filter_append, entrySum_append]
        refine Nat.add_le_add_left ?_ _
        refine (entrySum_filter_le (fun _ _ => rfl) _).trans (Nat.le_of_eq ?_)
        rw [List.filter_true]
      exact added
  | usage => exact Nat.le_add_right _ _
  | check cost =>
      rw [perform_check_snd]
      exact Nat.le_add_right _ _

variable {window : Duration} {limit : Int64} {turns past earlier between : List (Turn γ)}
  {turn : Turn γ}

theorem chronicleAfter_concat (past : List (Turn γ)) (turn : Turn γ) :
    chronicleAfter window limit (past ++ [turn]) =
      ((chronicleAfter window limit past).perform turn.step).2 := by
  unfold chronicleAfter
  rw [List.map_append]
  exact runSteps_concat_snd _ _ _ _

/-- Turns add no more than they record. -/
theorem usage_append_le (earlier between : List (Turn γ)) (now : Int) :
    (chronicleAfter window limit (earlier ++ between)).usage now ≤
      (chronicleAfter window limit earlier).usage now + recordedIn between := by
  induction between generalizing earlier with
  | nil =>
      rw [List.append_nil]
      exact Nat.le_refl _
  | cons turn rest inductionHypothesis =>
      have later := inductionHypothesis (earlier ++ [turn])
      rw [List.append_assoc, chronicleAfter_concat] at later
      have grown := (chronicleAfter window limit earlier).usage_perform_le turn now
      simp only [List.singleton_append] at later
      simp only [recordedIn, List.map_cons, List.sum_cons] at later ⊢
      omega

/-- As long as the clock does not go back, the ledger holds what is within the window. -/
theorem tracks_after
    (nondecreasing : Nondecreasing turns)
    (now : Instant)
    (all : ∀ turn ∈ turns, turn.step.now.nanoseconds ≤ now.nanoseconds) :
    Tracks (ledgerAfter window limit turns) (chronicleAfter window limit turns)
      now.nanoseconds := by
  have start := Tracks.empty window limit Instant.earliestNanoseconds
  refine (start.runSteps (turns.map Turn.step) ?_ fun step _ => step.now.earliest_le).2
    now.nanoseconds now.earliest_le ?_
  · exact List.pairwise_map.mpr nondecreasing
  · intro step member
    obtain ⟨turn, turnMember, rfl⟩ := List.mem_map.mp member
    exact all turn turnMember

/-- A check that passes finds room for its cost within the window. -/
theorem usage_add_le_of_passed
    {client : γ}
    {checked : Instant}
    {cost : UInt64}
    (enforced : 0 < limit.toInt)
    (nondecreasing : Nondecreasing (earlier ++ [.check client checked cost]))
    (passed : ((ledgerAfter window limit earlier).check checked cost).1 = .ok ()) :
    ((chronicleAfter window limit earlier).usage checked.nanoseconds : Int) + cost.toNat ≤
      limit.toInt := by
  obtain ⟨earlierNondecreasing, -, earlierLe⟩ := List.pairwise_append.mp nondecreasing
  have tracks : Tracks (ledgerAfter window limit earlier) (chronicleAfter window limit earlier)
      checked.nanoseconds :=
    tracks_after earlierNondecreasing checked fun turn member =>
      earlierLe turn member _ (List.mem_singleton.mpr rfl)
  have limitEq : (ledgerAfter window limit earlier).limit.toInt = limit.toInt :=
    tracks.limit_eq.trans (Chronicle.runSteps_limit _ _)
  have fits := Ledger.check_eq_ok_iff.mp passed
  rw [limitEq, tracks.held_eq_usage] at fits
  exact fits.resolve_left (Int.not_le.mpr enforced)

/-- Right after a record, the sum within the window is over the limit by no more
than was recorded since the check that cleared it. -/
theorem usage_record_le
    {client : γ}
    {checked now : Instant}
    {cost : UInt64}
    (enforced : 0 < limit.toInt)
    (nondecreasing : Nondecreasing (past ++ [.record client now cost]))
    (clears : Clears window limit client cost past earlier checked between) :
    ((chronicleAfter window limit (past ++ [.record client now cost])).usage
        now.nanoseconds : Int) ≤
      limit.toInt + recordedIn between := by
  obtain ⟨rfl, passed⟩ := clears
  rw [List.append_assoc, List.cons_append] at nondecreasing ⊢
  have checkTurns : earlier ++ [.check client checked cost] <+:
      earlier ++ .check client checked cost :: (between ++ [.record client now cost]) :=
    ⟨between ++ [.record client now cost], by simp⟩
  have room := usage_add_le_of_passed enforced (nondecreasing.sublist checkTurns.sublist) passed
  obtain ⟨-, checkFirst, -⟩ := List.pairwise_append.mp nondecreasing
  have checkedLe : checked.nanoseconds ≤ now.nanoseconds :=
    (List.pairwise_cons.mp checkFirst).1 (.record client now cost)
      (List.mem_append_right _ (List.mem_singleton.mpr rfl))
  have passes := (chronicleAfter window limit earlier).usage_anti checkedLe
  have grown : (chronicleAfter window limit (earlier ++ _)).usage now.nanoseconds ≤ _ :=
    usage_append_le earlier (.check client checked cost :: (between ++ [.record client now cost]))
      now.nanoseconds
  have recorded :
      recordedIn (.check client checked cost :: (between ++ [.record client now cost])) =
        recordedIn between + cost.toNat := by
    simp [recordedIn, Turn.recorded, Turn.check, Turn.record]
  omega

/-- A turn that comes last, after turns in the order of time. -/
theorem Nondecreasing.of_concat (nondecreasing : Nondecreasing (past ++ [turn])) :
    Nondecreasing past ∧ ∀ earlier ∈ past, earlier.step.now.nanoseconds ≤
      turn.step.now.nanoseconds := by
  obtain ⟨pastNondecreasing, -, pastLe⟩ := List.pairwise_append.mp nondecreasing
  exact ⟨pastNondecreasing, fun earlier member =>
    pastLe earlier member turn (List.mem_singleton.mpr rfl)⟩

theorem EachCleared.of_prefix
    {allowed : γ → List (Turn γ) → Prop}
    (cleared : EachCleared window limit allowed turns)
    (isPrefix : past <+: turns) :
    EachCleared window limit allowed past := by
  intro before client now cost after split
  obtain ⟨rest, rfl⟩ := isPrefix
  refine cleared before client now cost (after ++ rest) ?_
  rw [split, List.append_assoc, List.cons_append]

/-- Where no more than some slack is recorded between a check and the record that
it clears, the sum within the window is never over the limit by more than that. -/
theorem usage_le_add_slack
    {slack : Nat}
    (enforced : 0 < limit.toInt)
    (nondecreasing : Nondecreasing turns)
    (cleared : EachCleared window limit (fun _ between => recordedIn between ≤ slack) turns)
    {now : Int}
    (all : ∀ turn ∈ turns, turn.step.now.nanoseconds ≤ now) :
    ((chronicleAfter window limit turns).usage now : Int) ≤ limit.toInt + slack := by
  induction turns using List.reverseRecOn generalizing now with
  | nil =>
      have nothing : (chronicleAfter window limit ([] : List (Turn γ))).usage now = 0 := rfl
      omega
  | append_singleton past turn inductionHypothesis =>
      have turnLe := all turn (by simp)
      have passes := (chronicleAfter window limit (past ++ [turn])).usage_anti turnLe
      obtain ⟨pastNondecreasing, pastLe⟩ := nondecreasing.of_concat
      have pastCleared := cleared.of_prefix (List.prefix_append past [turn])
      have earlier := inductionHypothesis pastNondecreasing pastCleared pastLe
      obtain ⟨client, moment, operation⟩ := turn
      cases operation with
      | record cost =>
          obtain ⟨_, _, between, clears, betweenLe⟩ := cleared past client moment cost [] rfl
          have bound := usage_record_le enforced nondecreasing clears
          dsimp only [Turn.record] at bound passes
          omega
      | usage =>
          rw [chronicleAfter_concat] at passes ⊢
          exact Int.le_trans (Int.ofNat_le.mpr passes) earlier
      | check cost =>
          rw [chronicleAfter_concat, Chronicle.perform_check_snd] at passes ⊢
          exact Int.le_trans (Int.ofNat_le.mpr passes) earlier

/-! ### What is in flight -/

/-- Only other clients took turns. -/
def OnlyOthers (client : γ) (between : List (Turn γ)) : Prop :=
  ∀ turn ∈ between, turn.client ≠ client

/-- What a turn is granted: the cost that it checks, if the check passes. -/
def granted (window : Duration) (limit : Int64) (past : List (Turn γ)) (turn : Turn γ) : Nat :=
  match turn.step.operation with
  | .check cost =>
      match ((ledgerAfter window limit past).check turn.step.now cost).1 with
      | .ok () => cost.toNat
      | .error _ => 0
  | _ => 0

theorem granted_of_passed
    {client : γ}
    {now : Instant}
    {cost : UInt64}
    (passed : ((ledgerAfter window limit past).check now cost).1 = .ok ()) :
    granted window limit past (.check client now cost) = cost.toNat := by
  unfold granted Turn.check
  simp only
  rw [passed]

/-- A turn is granted nothing, or what it checks and what the check allows. -/
theorem granted_cases (window : Duration) (limit : Int64) (past : List (Turn γ)) (turn : Turn γ) :
    granted window limit past turn = 0 ∨
      ∃ client now cost, turn = .check client now cost ∧
        ((ledgerAfter window limit past).check now cost).1 = .ok () := by
  obtain ⟨client, now, operation⟩ := turn
  cases operation with
  | record cost => exact .inl rfl
  | usage => exact .inl rfl
  | check cost =>
      cases verdict : ((ledgerAfter window limit past).check now cost).1 with
      | ok passed => exact .inr ⟨client, now, cost, rfl, verdict⟩
      | error exceeded =>
          left
          unfold granted
          simp only
          rw [verdict]

variable [Fintype γ]

/-- What is in flight after turns. `pending` is, for each client, what it was
granted and has not followed up yet. -/
structure InFlight
    (window : Duration)
    (limit : Int64)
    (most : Nat)
    (turns : List (Turn γ))
    (pending : γ → Nat) : Prop where
  le_most : ∀ client, pending client ≤ most
  covers :
    ∀ client cost earlier checked between,
      Clears window limit client cost turns earlier checked between →
        OnlyOthers client between → cost.toNat ≤ pending client
  bound :
    ∀ now : Int, (∀ turn ∈ turns, turn.step.now.nanoseconds ≤ now) →
      ((chronicleAfter window limit turns).usage now : Int) + (∑ client, pending client : Nat) ≤
        limit.toInt + ((Fintype.card γ - 1) * most : Nat)

section Sums

variable [DecidableEq γ]

theorem sum_update (pending : γ → Nat) (client : γ) (amount : Nat) :
    ∑ other, Function.update pending client amount other =
      amount + ∑ other ∈ Finset.univ.erase client, pending other := by
  rw [Finset.sum_update_of_mem (Finset.mem_univ client), Finset.sdiff_singleton_eq_erase]

/-- What all clients but one have in flight. -/
theorem sum_erase_le {pending : γ → Nat} {most : Nat} (le_most : ∀ client, pending client ≤ most)
    (client : γ) :
    ∑ other ∈ Finset.univ.erase client, pending other ≤ (Fintype.card γ - 1) * most := by
  calc ∑ other ∈ Finset.univ.erase client, pending other
    _ ≤ (Finset.univ.erase client).card • most :=
        Finset.sum_le_card_nsmul _ _ _ fun other _ => le_most other
    _ = (Fintype.card γ - 1) * most := by
        rw [Finset.card_erase_of_mem (Finset.mem_univ client), Finset.card_univ, Nat.nsmul_eq_mul]

end Sums

namespace InFlight

variable {most : Nat} {pending : γ → Nat}

theorem nil (window : Duration) {limit : Int64} (enforced : 0 < limit.toInt) (most : Nat) :
    InFlight window limit most ([] : List (Turn γ)) fun _ => 0 where
  le_most := fun _ => Nat.zero_le _
  covers := by
    intro client cost earlier checked between clears
    have split := clears.split
    simp at split
  bound := by
    intro now _
    have nothing : (chronicleAfter window limit ([] : List (Turn γ))).usage now = 0 := rfl
    simp only [Finset.sum_const_zero]
    omega

variable [DecidableEq γ]

/-- A turn changes only what its own client has in flight. -/
theorem covers_concat
    (inFlight : InFlight window limit most past pending)
    {client : γ}
    {cost : UInt64}
    {checked : Instant}
    (clears : Clears window limit client cost (past ++ [turn]) earlier checked between)
    (others : OnlyOthers client between) :
    cost.toNat ≤
      Function.update pending turn.client (granted window limit past turn) client := by
  obtain ⟨split, passed⟩ := clears
  rcases List.eq_nil_or_concat between with rfl | ⟨rest, last, rfl⟩
  · -- The check is the last turn, so it is what the client has been granted.
    obtain ⟨rfl, same⟩ := List.append_inj' split rfl
    obtain rfl := List.cons.inj same |>.1
    rw [granted_of_passed passed, Turn.check, Function.update_self]
  · rw [List.concat_eq_append, ← List.cons_append, ← List.append_assoc] at split
    obtain ⟨rfl, same⟩ := List.append_inj' split rfl
    obtain rfl := List.cons.inj same |>.1
    have other := others turn (by simp)
    rw [Function.update_of_ne other.symm]
    exact inFlight.covers client cost earlier checked rest ⟨rfl, passed⟩
      fun turn member => others turn (by simp [member])

/-- One turn keeps the bound. A check that passes finds room for its own cost,
and a record gives up as much as it adds. -/
theorem bound_concat
    (inFlight : InFlight window limit most past pending)
    (enforced : 0 < limit.toInt)
    (nondecreasing : Nondecreasing (past ++ [turn]))
    (cleared : EachCleared window limit OnlyOthers (past ++ [turn]))
    {now : Int}
    (all : ∀ turn' ∈ past ++ [turn], turn'.step.now.nanoseconds ≤ now) :
    ((chronicleAfter window limit (past ++ [turn])).usage now : Int) +
        (∑ client, Function.update pending turn.client (granted window limit past turn) client :
          Nat) ≤
      limit.toInt + ((Fintype.card γ - 1) * most : Nat) := by
  have turnLe := all turn (by simp)
  have pastLe : ∀ earlier ∈ past, earlier.step.now.nanoseconds ≤ now :=
    fun earlier member => all earlier (by simp [member])
  have grown := (chronicleAfter window limit past).usage_perform_le turn now
  rw [chronicleAfter_concat, sum_update]
  have others := sum_erase_le inFlight.le_most turn.client
  have before := inFlight.bound now pastLe
  rw [← Finset.add_sum_erase _ _ (Finset.mem_univ turn.client)] at before
  rcases granted_cases window limit past turn with nothing | ⟨client, checked, cost, rfl, passed⟩
  · have recordedLe : turn.recorded ≤ pending turn.client := by
      obtain ⟨client, moment, operation⟩ := turn
      cases operation with
      | record cost =>
          obtain ⟨earlier, checked, between, clears, only⟩ :=
            cleared past client moment cost [] rfl
          exact inFlight.covers client cost earlier checked between clears only
      | usage => exact Nat.zero_le _
      | check cost => exact Nat.zero_le _
    omega
  · have room := usage_add_le_of_passed enforced nondecreasing passed
    have passes := (chronicleAfter window limit past).usage_anti turnLe
    rw [granted_of_passed passed]
    have nothing : (Turn.check client checked cost).recorded = 0 := rfl
    dsimp only [Turn.check] at passes grown nothing others ⊢
    omega

end InFlight

/-- Where only other clients act between a client's check and its record, and no
more than `most` is ever checked, the sum within the window is over the limit by
no more than all clients but one can have in flight. -/
theorem exists_inFlight
    {most : Nat}
    (enforced : 0 < limit.toInt)
    (nondecreasing : Nondecreasing turns)
    (cleared : EachCleared window limit OnlyOthers turns)
    (checks : ∀ client now cost, Turn.check client now cost ∈ turns → cost.toNat ≤ most) :
    ∃ pending : γ → Nat, InFlight window limit most turns pending := by
  classical
  induction turns using List.reverseRecOn with
  | nil => exact ⟨_, .nil window enforced most⟩
  | append_singleton past turn inductionHypothesis =>
      have pastCleared := cleared.of_prefix (List.prefix_append past [turn])
      obtain ⟨pending, inFlight⟩ := inductionHypothesis nondecreasing.of_concat.1 pastCleared
        fun client now cost member => checks client now cost (by simp [member])
      refine ⟨Function.update pending turn.client (granted window limit past turn), ?_, ?_, ?_⟩
      · intro client
        rcases eq_or_ne client turn.client with rfl | other
        · rw [Function.update_self]
          rcases granted_cases window limit past turn with
            nothing | ⟨client, checked, cost, rfl, passed⟩
          · rw [nothing]
            exact Nat.zero_le _
          · rw [granted_of_passed passed]
            exact checks client checked cost (by simp)
        · rw [Function.update_of_ne other]
          exact inFlight.le_most client
      · intro client cost earlier checked between clears others
        exact inFlight.covers_concat clears others
      · intro now all
        exact inFlight.bound_concat enforced nondecreasing cleared all

end Sharing

/-- Clients share a ledger with an enforced limit that begins without records. It
holds what was recorded within the window. Right after a client has recorded a
cost which its own check cleared, that sum is over the limit by no more than was
recorded in between; time and everything but a record only make it less. So it
stays within the limit where nothing is recorded in between, and among `n`
clients that check at most `most` and let only others act in between, it is at
most `(n - 1) * most` over. -/
theorem shared_usage_le
    {γ : Type}
    (window : Duration)
    (limit : Int64)
    (turns : List (Turn γ))
    (enforced : 0 < limit.toInt)
    (nondecreasing : Nondecreasing turns) :
    (∀ past, past <+: turns → ∀ now : Instant,
      (∀ turn ∈ past, turn.step.now.nanoseconds ≤ now.nanoseconds) →
        (ledgerAfter window limit past).held now =
          (chronicleAfter window limit past).usage now.nanoseconds) ∧
      (∀ past client now cost, past ++ [.record client now cost] <+: turns →
        ∀ earlier checked between,
          Clears window limit client cost past earlier checked between →
            ((chronicleAfter window limit (past ++ [.record client now cost])).usage
                now.nanoseconds : Int) ≤
              limit.toInt + recordedIn between) ∧
      (∀ past turn now later, turn.recorded = 0 → now ≤ later →
        (chronicleAfter window limit (past ++ [turn] : List (Turn γ))).usage later ≤
          (chronicleAfter window limit past).usage now) ∧
      (∀ slack, EachCleared window limit (fun _ between => recordedIn between ≤ slack) turns →
        ∀ past, past <+: turns → ∀ now : Int, (∀ turn ∈ past, turn.step.now.nanoseconds ≤ now) →
          ((chronicleAfter window limit past).usage now : Int) ≤ limit.toInt + slack) ∧
      ∀ [Fintype γ] most, EachCleared window limit OnlyOthers turns →
        (∀ client now cost, Turn.check client now cost ∈ turns → cost.toNat ≤ most) →
          ∀ past, past <+: turns → ∀ now : Int, (∀ turn ∈ past, turn.step.now.nanoseconds ≤ now) →
            ((chronicleAfter window limit past).usage now : Int) ≤
              limit.toInt + ((Fintype.card γ - 1) * most : Nat) := by
  refine ⟨?_, ?_, ?_, ?_, ?_⟩
  · intro past isPrefix now all
    exact (tracks_after (nondecreasing.sublist isPrefix.sublist) now all).held_eq_usage
  · intro past client now cost isPrefix earlier checked between clears
    exact usage_record_le enforced (nondecreasing.sublist isPrefix.sublist) clears
  · intro past turn now later recordless passes
    have grown := (chronicleAfter window limit past).usage_perform_le turn later
    rw [recordless] at grown
    rw [chronicleAfter_concat]
    exact grown.trans ((chronicleAfter window limit past).usage_anti passes)
  · intro slack cleared past isPrefix now all
    exact usage_le_add_slack enforced (nondecreasing.sublist isPrefix.sublist)
      (cleared.of_prefix isPrefix) all
  · intro _ most cleared checks past isPrefix now all
    obtain ⟨pending, inFlight⟩ := exists_inFlight enforced
      (nondecreasing.sublist isPrefix.sublist) (cleared.of_prefix isPrefix)
      fun client now cost member => checks client now cost (isPrefix.subset member)
    have bound := inFlight.bound now all
    omega

/-- Two clients have both checked before either of them records. -/
def crossedTurns : List (Turn Bool) :=
  [.check false .earliest 10, .check true .earliest 10, .record false .earliest 10,
    .record true .earliest 10]

theorem crossedTurns_nondecreasing : Nondecreasing crossedTurns := by
  simp [Nondecreasing, crossedTurns, Turn.check, Turn.record]

theorem crossedTurns_cleared : EachCleared ⟨0⟩ 10 OnlyOthers crossedTurns := by
  intro before client now cost after split
  -- The record is the third turn or the fourth.
  rcases before with _ | ⟨first, _ | ⟨second, _ | ⟨third, _ | ⟨fourth, rest⟩⟩⟩⟩
  · simp [crossedTurns, Turn.check, Turn.record] at split
  · simp [crossedTurns, Turn.check, Turn.record] at split
  · simp only [crossedTurns, List.cons_append, List.nil_append, List.cons.injEq, Turn.record,
      Turn.mk.injEq, Step.mk.injEq, Operation.record.injEq] at split
    obtain ⟨rfl, rfl, ⟨rfl, rfl, rfl⟩, -⟩ := split
    exact ⟨[], .earliest, [.check true .earliest 10], ⟨rfl, by decide⟩, by
      simp [OnlyOthers, Turn.check]⟩
  · simp only [crossedTurns, List.cons_append, List.nil_append, List.cons.injEq, Turn.record,
      Turn.mk.injEq, Step.mk.injEq, Operation.record.injEq] at split
    obtain ⟨rfl, rfl, rfl, ⟨rfl, rfl, rfl⟩, -⟩ := split
    exact ⟨[.check false .earliest 10], .earliest, [.record false .earliest 10],
      ⟨rfl, by decide⟩, by simp [OnlyOthers, Turn.record]⟩
  · simp [crossedTurns] at split

/-- Each of two clients records only what its own check has cleared, with nothing
but turns of the other in between, and together they pass the limit. -/
theorem crossedTurns_over_limit :
    0 < (10 : Int64).toInt ∧ Nondecreasing crossedTurns ∧
      EachCleared ⟨0⟩ 10 OnlyOthers crossedTurns ∧
      ¬ ((chronicleAfter ⟨0⟩ 10 crossedTurns).usage Instant.earliest.nanoseconds : Int) ≤
        (10 : Int64).toInt :=
  ⟨by decide, crossedTurns_nondecreasing, crossedTurns_cleared, by decide⟩

/-- The two clients reach the bound. -/
theorem shared_usage_le_of_crossedTurns :
    (0 < (10 : Int64).toInt ∧ Nondecreasing crossedTurns) ∧
      ((chronicleAfter ⟨0⟩ 10 crossedTurns).usage Instant.earliest.nanoseconds : Int) ≤
        (10 : Int64).toInt + ((Fintype.card Bool - 1) * 10 : Nat) ∧
      (chronicleAfter ⟨0⟩ 10 crossedTurns).usage Instant.earliest.nanoseconds = 20 := by
  refine ⟨⟨by decide, crossedTurns_nondecreasing⟩, ?_, by decide⟩
  obtain ⟨-, -, -, -, clients⟩ :=
    shared_usage_le ⟨0⟩ 10 crossedTurns (by decide) crossedTurns_nondecreasing
  refine clients 10 crossedTurns_cleared ?_ crossedTurns (List.prefix_refl _) _ ?_
  · intro client now cost member
    simp [crossedTurns, Turn.check, Turn.record] at member
    rcases member with ⟨-, -, rfl⟩ | ⟨-, -, rfl⟩ <;> decide
  · intro turn member
    simp [crossedTurns] at member
    rcases member with rfl | rfl | rfl | rfl <;> exact Int.le_refl _

end Precis.Usage

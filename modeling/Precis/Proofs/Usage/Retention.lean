import Mathlib.Data.List.Induction
import Precis.Proofs.Usage.Chronicle

/-!
Contract: what a ledger keeps and what it counts, whatever the clock shows.

Owns one step of a ledger, taken apart into what it drops, what it adds and what
it answers; what is stored after any steps, as the end of all records that were
made; and how that compares with the window. Records are dropped from the front
alone. So what lies within the window is never dropped, even when the clock goes
back, but a record that has expired is still counted behind one that has not.

Does not own the agreement with a ledger that forgets nothing: for that the clock
must not go back.
-/

namespace Precis.Usage

/-! ### One step -/

/-- The records that a step makes. -/
def Step.made (step : Step) : List Record :=
  match step.operation with
  | .record cost => [⟨step.now, cost⟩]
  | _ => []

/-- Whether a record lies within the window at a time. The oldest time that
still counts is included. -/
def Record.LiveAt (record : Record) (window : Duration) (now : Instant) : Prop :=
  now.nanoseconds - window.nanoseconds ≤ record.time.nanoseconds

instance (record : Record) (window : Duration) (now : Instant) :
    Decidable (record.LiveAt window now) :=
  inferInstanceAs (Decidable (_ ≤ _))

/-- What is answered to an operation where the records come to a total. -/
def Operation.answer (limit : Int) (total : Nat) : Operation → Answer
  | .record _ => .recorded
  | .usage => .usage total
  | .check cost =>
      if limit ≤ 0 ∨ (total : Int) + cost.toNat ≤ limit then .allowed
      else .refused total cost.toNat limit

instance (operation : Operation) (limit : Int) : Decidable (operation.Prunes limit) :=
  match operation with
  | .record _ => isTrue trivial
  | .usage => isTrue trivial
  | .check _ => inferInstanceAs (Decidable (0 < limit))

namespace Ledger

/-- The records that are left before a step adds its own. -/
def keptBy (ledger : Ledger) (step : Step) : List Record :=
  if step.operation.Prunes ledger.limit.toInt then (ledger.prune step.now).records
  else ledger.records

/-- All that a step does to a ledger. -/
theorem perform_snd (ledger : Ledger) (step : Step) :
    (ledger.perform step).2 = { ledger with records := ledger.keptBy step ++ step.made } := by
  obtain ⟨now, operation⟩ := step
  cases operation with
  | record cost => rfl
  | usage =>
      rw [show Step.made ⟨now, .usage⟩ = [] from rfl, List.append_nil]
      rfl
  | check cost =>
      rw [show Step.made ⟨now, .check cost⟩ = [] from rfl, List.append_nil]
      show (ledger.check now cost).2 = _
      rw [check_snd]
      by_cases unenforced : ledger.limit.toInt ≤ 0
      · have kept : ledger.keptBy ⟨now, .check cost⟩ = ledger.records :=
          if_neg (Int.not_lt.mpr unenforced)
        rw [if_pos unenforced, kept]
      · have kept : ledger.keptBy ⟨now, .check cost⟩ = (ledger.prune now).records :=
          if_pos (Int.not_le.mp unenforced)
        rw [if_neg unenforced, kept]
        rfl

theorem perform_records (ledger : Ledger) (step : Step) :
    (ledger.perform step).2.records = ledger.keptBy step ++ step.made := by
  rw [perform_snd]

/-- What a step drops from the front had expired, and only a step that looks at
the records drops anything. -/
theorem exists_dropped (ledger : Ledger) (step : Step) :
    ∃ dropped, ledger.records = dropped ++ ledger.keptBy step ∧
      ∀ record ∈ dropped, step.operation.Prunes ledger.limit.toInt ∧
        ledger.isExpired step.now record = true := by
  by_cases prunes : step.operation.Prunes ledger.limit.toInt
  · refine ⟨ledger.records.takeWhile (ledger.isExpired step.now), ?_, fun record member => ?_⟩
    · rw [keptBy, if_pos prunes]
      exact List.takeWhile_append_dropWhile.symm
    · exact ⟨prunes, List.all_eq_true.mp List.all_takeWhile record member⟩
  · refine ⟨[], ?_, by simp⟩
    rw [keptBy, if_neg prunes]
    rfl

/-- A question is answered from the total of what is left once the front is pruned. -/
theorem perform_fst (ledger : Ledger) (now : Instant) (operation : Operation) :
    (ledger.perform ⟨now, operation⟩).1 =
      operation.answer ledger.limit.toInt (ledger.prune now).total.toNat := by
  cases operation with
  | record cost => rfl
  | usage => rfl
  | check cost =>
      have limitLt := ledger.limit.toInt_lt
      have totalEq := (ledger.prune now).toNat_total
      show Answer.ofVerdict (ledger.check now cost).1 = _
      rw [check_eq]
      simp only [Operation.answer]
      by_cases unenforced : ledger.limit.toInt ≤ 0
      · rw [if_pos unenforced, if_pos (Or.inl unenforced)]
        rfl
      · -- A total that was held at the greatest count is over every limit, like the exact sum.
        have fitsIff :
            (ledger.limit.toInt ≤ 0 ∨
                ((ledger.prune now).total.toNat : Int) + cost.toNat ≤ ledger.limit.toInt) ↔
              (ledger.held now : Int) + cost.toNat ≤ ledger.limit.toInt := by
          unfold held
          omega
        rw [if_neg unenforced]
        by_cases fits : (ledger.held now : Int) + cost.toNat ≤ ledger.limit.toInt
        · rw [if_pos fits, if_pos (fitsIff.mpr fits)]
          rfl
        · have limitEq : ((ledger.refusal now cost).limit.toNat : Int) = ledger.limit.toInt := by
            rw [toNat_refusal_limit]
            omega
          rw [if_neg fits, if_neg (fitsIff.not.mpr fits)]
          simp only [Answer.ofVerdict, limitEq]
          rfl

/-- A question is answered from the total of what it leaves in the ledger. -/
theorem perform_fst_of_left (ledger : Ledger) (step : Step) :
    (ledger.perform step).1 =
      step.operation.answer ledger.limit.toInt (ledger.perform step).2.total.toNat := by
  obtain ⟨now, operation⟩ := step
  cases operation with
  | record cost => rfl
  | usage => rfl
  | check cost =>
      rw [perform_fst]
      show _ = (Operation.check cost).answer _ (ledger.check now cost).2.total.toNat
      rw [check_snd]
      split
      case isTrue unenforced =>
        simp only [Operation.answer]
        rw [if_pos (Or.inl unenforced), if_pos (Or.inl unenforced)]
      case isFalse => rfl

/-! ### Many steps -/

/-- The ledger after steps, if it began without records. -/
def ofSteps (window : Duration) (limit : Int64) (steps : List Step) : Ledger :=
  (runSteps Ledger.perform (.empty window limit) steps).2

section Steps

variable (window : Duration) (limit : Int64) (steps past : List Step) (step : Step)

theorem ofSteps_concat :
    ofSteps window limit (past ++ [step]) = ((ofSteps window limit past).perform step).2 :=
  runSteps_concat_snd _ _ _ _

/-- Steps change nothing but the records. -/
theorem ofSteps_eq :
    ofSteps window limit steps =
      { Ledger.empty window limit with records := (ofSteps window limit steps).records } := by
  induction steps using List.reverseRecOn with
  | nil => rfl
  | append_singleton past step inductionHypothesis =>
      rw [ofSteps_concat, perform_snd, inductionHypothesis]

theorem ofSteps_limit : (ofSteps window limit steps).limit = limit := by
  rw [ofSteps_eq]
  rfl

theorem ofSteps_window :
    (ofSteps window limit steps).window = (Ledger.empty window limit).window := by
  rw [ofSteps_eq]

/-- A record is expired when it has left the window as it was given. -/
theorem isExpired_ofSteps_iff (now : Instant) (record : Record) :
    (ofSteps window limit steps).isExpired now record = true ↔ ¬ record.LiveAt window now := by
  have windowEq : (ofSteps window limit steps).window.nanoseconds =
      min window.nanoseconds longestWindow.nanoseconds := by
    rw [ofSteps_window]
    rfl
  rw [isExpired_iff windowEq]
  exact Int.not_le.symm

theorem isExpired_ofSteps_eq_false_iff (now : Instant) (record : Record) :
    (ofSteps window limit steps).isExpired now record = false ↔ record.LiveAt window now := by
  rw [← Bool.not_eq_true, isExpired_ofSteps_iff, Decidable.not_not]

end Steps

end Ledger

/-- The records that steps make, oldest first. -/
def made (steps : List Step) : List Record :=
  steps.flatMap Step.made

theorem made_concat (past : List Step) (step : Step) :
    made (past ++ [step]) = made past ++ step.made := by
  unfold made
  rw [List.flatMap_append, List.flatMap_singleton]

/-- A ledger stores the end of all records that were made, in the order in which
they were made. -/
theorem records_ofSteps_suffix (window : Duration) (limit : Int64) (steps : List Step) :
    (Ledger.ofSteps window limit steps).records <:+ made steps := by
  induction steps using List.reverseRecOn with
  | nil => exact List.suffix_refl _
  | append_singleton past step inductionHypothesis =>
      obtain ⟨dropped, split, -⟩ := (Ledger.ofSteps window limit past).exists_dropped step
      obtain ⟨older, madeEq⟩ := inductionHypothesis
      rw [Ledger.ofSteps_concat, Ledger.perform_records, made_concat]
      refine ⟨older ++ dropped, ?_⟩
      rw [← madeEq, split]
      simp only [List.append_assoc]

/-! ### What never left the window -/

/-- Whether a record lies within the window at each of the steps that look at the
records. A check of a limit that is not enforced looks neither at them nor at
the clock. -/
def Record.Outlasts (record : Record) (window : Duration) (limit : Int) (since : List Step) :
    Prop :=
  ∀ step ∈ since, step.operation.Prunes limit → record.LiveAt window step.now

instance (record : Record) (window : Duration) (limit : Int) (since : List Step) :
    Decidable (record.Outlasts window limit since) :=
  inferInstanceAs (Decidable (∀ step ∈ since, _ → _))

/-- The records that lie within the window at every step since they were made. -/
def lasting (window : Duration) (limit : Int) : List Step → List Record
  | [] => []
  | step :: since =>
      step.made.filter (fun record => record.Outlasts window limit since) ++
        lasting window limit since

theorem Record.outlasts_singleton_iff
    {record : Record}
    {window : Duration}
    {limit : Int}
    {step : Step}
    (prunes : step.operation.Prunes limit) :
    record.Outlasts window limit [step] ↔ record.LiveAt window step.now := by
  unfold Outlasts
  rw [List.forall_mem_singleton]
  exact ⟨fun outlasts => outlasts prunes, fun live _ => live⟩

/-- A record lasts until it has left the window at a step that looks at it. -/
theorem lasting_concat (window : Duration) (limit : Int) (past : List Step) (step : Step) :
    lasting window limit (past ++ [step]) =
      (lasting window limit past).filter (fun record => record.Outlasts window limit [step]) ++
        step.made := by
  induction past with
  | nil =>
      have fresh : ∀ record : Record, record.Outlasts window limit [] := by
        intro record step member
        simp at member
      simp [lasting, fresh]
  | cons first past inductionHypothesis =>
      have outlastsBoth : ∀ record : Record,
          record.Outlasts window limit (past ++ [step]) ↔
            record.Outlasts window limit [step] ∧ record.Outlasts window limit past := by
        intro record
        unfold Record.Outlasts
        rw [List.forall_mem_append, and_comm]
      rw [List.cons_append, lasting, lasting, inductionHypothesis, List.filter_append,
        List.filter_filter, List.append_assoc]
      simp only [outlastsBoth, Bool.decide_and]

/-- Dropping from the front drops nothing but what is to be dropped. -/
theorem filter_sublist_dropWhile {α : Type} (dropped : α → Bool) (items : List α) :
    (items.filter fun item => !dropped item).Sublist (items.dropWhile dropped) := by
  induction items with
  | nil => exact List.Sublist.slnil
  | cons head tail inductionHypothesis =>
      by_cases headDropped : dropped head = true
      · rw [List.dropWhile_cons_of_pos headDropped, List.filter_cons_of_neg (by simp [headDropped])]
        exact inductionHypothesis
      · rw [List.dropWhile_cons_of_neg headDropped]
        exact List.filter_sublist

/-- What never left the window is still stored. -/
theorem lasting_sublist (window : Duration) (limit : Int64) (steps : List Step) :
    (lasting window limit.toInt steps).Sublist (Ledger.ofSteps window limit steps).records := by
  induction steps using List.reverseRecOn with
  | nil => exact List.Sublist.slnil
  | append_singleton past step inductionHypothesis =>
      rw [lasting_concat, Ledger.ofSteps_concat, Ledger.perform_records]
      apply List.Sublist.append_right
      have limitEq : (Ledger.ofSteps window limit past).limit = limit :=
        Ledger.ofSteps_limit window limit past
      unfold Ledger.keptBy
      rw [limitEq]
      by_cases prunes : step.operation.Prunes limit.toInt
      · have liveOnly :
            (fun record : Record => decide (record.Outlasts window limit.toInt [step])) =
            fun record => !(Ledger.ofSteps window limit past).isExpired step.now record := by
          funext record
          rw [Bool.eq_iff_iff, decide_eq_true_iff, Record.outlasts_singleton_iff prunes,
            Bool.not_eq_true', Ledger.isExpired_ofSteps_eq_false_iff]
        rw [if_pos prunes, liveOnly]
        exact (inductionHypothesis.filter _).trans (filter_sublist_dropWhile _ _)
      · rw [if_neg prunes]
        exact List.filter_sublist.trans inductionHypothesis

/-- Whatever the clock shows, a ledger stores the end of all records that were
made. A step drops only what had left the window by then, and only from the
front. So a question is answered from a total that covers all records that never
left the window since they were made, and covers no more than was made. -/
theorem live_usage_retained
    (window : Duration)
    (limit : Int64)
    (past : List Step)
    (step : Step) :
    let before := Ledger.ofSteps window limit past
    let after := Ledger.ofSteps window limit (past ++ [step])
    before.records <:+ made past ∧
      (∃ dropped kept, before.records = dropped ++ kept ∧ after.records = kept ++ step.made ∧
        ∀ record ∈ dropped, step.operation.Prunes limit.toInt ∧
          record.time.nanoseconds < step.now.nanoseconds - window.nanoseconds) ∧
      (before.perform step).1 = step.operation.answer limit.toInt after.total.toNat ∧
      min (costOf (lasting window limit.toInt (past ++ [step]))) 18446744073709551615 ≤
        after.total.toNat ∧
      after.total.toNat ≤ min (costOf (made (past ++ [step]))) 18446744073709551615 := by
  intro before after
  have limitEq : before.limit = limit := Ledger.ofSteps_limit window limit past
  have afterEq : after = (before.perform step).2 := Ledger.ofSteps_concat window limit past step
  have lastingLe :
      costOf (lasting window limit.toInt (past ++ [step])) ≤ costOf after.records :=
    costOf_le_of_sublist (lasting_sublist window limit (past ++ [step]))
  have leMade : costOf after.records ≤ costOf (made (past ++ [step])) :=
    costOf_le_of_suffix (records_ofSteps_suffix window limit (past ++ [step]))
  refine ⟨records_ofSteps_suffix window limit past, ?_, ?_, ?_, ?_⟩
  · obtain ⟨dropped, split, expired⟩ := before.exists_dropped step
    refine ⟨dropped, before.keptBy step, split, ?_, fun record member => ?_⟩
    · rw [afterEq]
      exact before.perform_records step
    · obtain ⟨prunes, old⟩ := expired record member
      rw [limitEq] at prunes
      have left := (Ledger.isExpired_ofSteps_iff window limit past step.now record).mp old
      exact ⟨prunes, Int.not_le.mp left⟩
  · rw [afterEq, before.perform_fst_of_left, limitEq]
  · rw [after.toNat_total]
    omega
  · rw [after.toNat_total]
    omega

/-! ### What has expired and is still counted -/

/-- What is dropped from the front leaves an item exactly where the item, or one
before it, is not to be dropped. -/
theorem suffix_dropWhile_iff
    {α : Type}
    {dropped : α → Bool}
    {older newer : List α}
    {item : α} :
    item :: newer <:+ (older ++ item :: newer).dropWhile dropped ↔
      ∃ kept ∈ older ++ [item], dropped kept = false := by
  induction older with
  | nil =>
      rw [List.nil_append, List.nil_append]
      by_cases itemDropped : dropped item = true
      · rw [List.dropWhile_cons_of_pos itemDropped]
        constructor
        · intro isSuffix
          have lengths := (isSuffix.trans (List.dropWhile_suffix dropped)).length_le
          rw [List.length_cons] at lengths
          omega
        · rintro ⟨kept, member, isKept⟩
          rw [List.mem_singleton.mp member, itemDropped] at isKept
          contradiction
      · rw [List.dropWhile_cons_of_neg itemDropped]
        refine ⟨fun _ => ⟨item, List.mem_singleton.mpr rfl, ?_⟩, fun _ => List.suffix_refl _⟩
        exact eq_false_of_ne_true itemDropped
  | cons head older inductionHypothesis =>
      rw [List.cons_append, List.cons_append]
      by_cases headDropped : dropped head = true
      · rw [List.dropWhile_cons_of_pos headDropped, inductionHypothesis]
        constructor
        · rintro ⟨kept, member, isKept⟩
          exact ⟨kept, List.mem_cons_of_mem head member, isKept⟩
        · rintro ⟨kept, member, isKept⟩
          rcases List.mem_cons.mp member with rfl | further
          · rw [headDropped] at isKept
            contradiction
          · exact ⟨kept, further, isKept⟩
      · rw [List.dropWhile_cons_of_neg headDropped]
        constructor
        · intro _
          exact ⟨head, List.mem_cons_self, eq_false_of_ne_true headDropped⟩
        · intro _
          exact (List.suffix_append older (item :: newer)).trans (List.suffix_cons head _)

section Counted

variable {window : Duration} {limit : Int64} {past : List Step} {now : Instant}

/-- A stored record is left by a prune exactly where it, or one that is stored
before it, lies within the window. -/
theorem suffix_prune_ofSteps_iff
    {older newer : List Record}
    {record : Record}
    (split : (Ledger.ofSteps window limit past).records = older ++ record :: newer) :
    record :: newer <:+ ((Ledger.ofSteps window limit past).prune now).records ↔
      ∃ live ∈ older ++ [record], live.LiveAt window now := by
  unfold Ledger.prune
  rw [split, suffix_dropWhile_iff]
  simp only [Ledger.isExpired_ofSteps_eq_false_iff]

/-- What has expired is left by a prune only behind a live record of a later time. -/
theorem exists_live_of_expired
    {older newer : List Record}
    {record : Record}
    (split : (Ledger.ofSteps window limit past).records = older ++ record :: newer)
    (left : record :: newer <:+ ((Ledger.ofSteps window limit past).prune now).records)
    (expired : ¬ record.LiveAt window now) :
    ∃ live ∈ older, live.LiveAt window now ∧
      record.time.nanoseconds < live.time.nanoseconds := by
  obtain ⟨live, member, isLive⟩ := (suffix_prune_ofSteps_iff split).mp left
  rcases List.mem_append.mp member with before | itself
  · refine ⟨live, before, isLive, ?_⟩
    unfold Record.LiveAt at expired isLive
    omega
  · rw [List.mem_singleton.mp itself] at isLive
    exact absurd isLive expired

theorem liveAt_of_sorted
    (sorted : (made past).Pairwise fun earlier later =>
      earlier.time.nanoseconds ≤ later.time.nanoseconds)
    {record : Record}
    (left : record ∈ ((Ledger.ofSteps window limit past).prune now).records) :
    record.LiveAt window now := by
  have stored := sorted.sublist (records_ofSteps_suffix window limit past).sublist
  have expiredIff : ∀ record, (Ledger.ofSteps window limit past).isExpired now record = true ↔
      record.time.nanoseconds < now.nanoseconds - window.nanoseconds := fun record =>
    (Ledger.isExpired_ofSteps_iff window limit past now record).trans Int.not_le
  unfold Ledger.prune at left
  rw [dropWhile_eq_filter_of_sorted expiredIff stored] at left
  exact of_decide_eq_true (List.mem_filter.mp left).2

end Counted

/-- Whatever the clock showed before, a question is answered from the total of
the records that are left once the front is pruned. A stored record is among
them exactly where it, or one that is stored before it, lies within the window.
So what has expired is counted only behind a record that was made earlier and
has a later time; where no record was made at an earlier time than one before
it, nothing is counted that has expired. -/
theorem counted_iff_behind_live
    (window : Duration)
    (limit : Int64)
    (past : List Step)
    (now : Instant) :
    let ledger := Ledger.ofSteps window limit past
    let counted := (ledger.prune now).records
    (∀ operation, (ledger.perform ⟨now, operation⟩).1 =
        operation.answer limit.toInt (min (costOf counted) 18446744073709551615)) ∧
      (∀ older record newer, ledger.records = older ++ record :: newer →
        (record :: newer <:+ counted ↔ ∃ live ∈ older ++ [record], live.LiveAt window now) ∧
          (record :: newer <:+ counted → ¬ record.LiveAt window now →
            ∃ live ∈ older, live.LiveAt window now ∧
              record.time.nanoseconds < live.time.nanoseconds)) ∧
      (((made past).Pairwise fun earlier later =>
          earlier.time.nanoseconds ≤ later.time.nanoseconds) →
        ∀ record ∈ counted, record.LiveAt window now) := by
  intro ledger counted
  refine ⟨?_, ?_, ?_⟩
  · intro operation
    rw [ledger.perform_fst, Ledger.ofSteps_limit, Ledger.toNat_total]
  · intro older record newer split
    exact ⟨suffix_prune_ofSteps_iff split, exists_live_of_expired split⟩
  · intro sorted record left
    exact liveAt_of_sorted sorted left

/-- The clock is stepped back by fifty seconds between two records. Five seconds
after the first, with a window of ten, the second has expired long since and is
counted all the same: a check is refused for which the live record leaves room. -/
theorem expired_usage_counted :
    let first : Instant := ⟨100000000000, by decide, by decide⟩
    let second : Instant := ⟨50000000000, by decide, by decide⟩
    let now : Instant := ⟨105000000000, by decide, by decide⟩
    let window := Duration.ofSeconds 10
    let past : List Step := [⟨first, .record 4⟩, ⟨second, .record 5⟩]
    let ledger := Ledger.ofSteps window 10 past
    (made past).filter (fun record => record.LiveAt window now) = [⟨first, 4⟩] ∧
      (ledger.perform ⟨now, .usage⟩).1 = .usage 9 ∧
      (ledger.perform ⟨now, .check 5⟩).1 = .refused 9 5 10 := by
  decide

end Precis.Usage

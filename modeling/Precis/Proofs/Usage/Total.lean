import Precis.Usage.Ledger

/-!
Contract: what a ledger holds, in exact numbers.

This module owns the exact sum of costs and what the operations of a ledger say
in terms of it. The total that a ledger reports is that sum, held at the
greatest count. The check compares the exact sum: every limit lies far below
the greatest count, so a sum that was held there is over the limit anyway.
-/

namespace Precis.Usage

/-- The exact sum of the costs of records. -/
def costOf : List Record → Nat
  | [] => 0
  | record :: rest => record.cost.toNat + costOf rest

theorem toNat_foldl_saturatingAdd (records : List Record) (initial : UInt64) :
    (records.foldl (fun sum record => saturatingAdd sum record.cost) initial).toNat =
      min (initial.toNat + costOf records) 18446744073709551615 := by
  induction records generalizing initial with
  | nil =>
      have initialLt := initial.toNat_lt
      simp only [List.foldl_nil, costOf]
      omega
  | cons head tail inductionHypothesis =>
      rw [List.foldl_cons, inductionHypothesis, toNat_saturatingAdd]
      simp only [costOf]
      omega

theorem costOf_append (older newer : List Record) :
    costOf (older ++ newer) = costOf older + costOf newer := by
  induction older with
  | nil => simp only [List.nil_append, costOf, Nat.zero_add]
  | cons head tail inductionHypothesis =>
      simp only [List.cons_append, costOf, inductionHypothesis, Nat.add_assoc]

/-- Some of the records cost no more than all of them. -/
theorem costOf_le_of_sublist {part whole : List Record} (isSublist : part.Sublist whole) :
    costOf part ≤ costOf whole := by
  induction isSublist with
  | slnil => exact Nat.le_refl _
  | cons record _ inductionHypothesis =>
      exact Nat.le_trans inductionHypothesis (Nat.le_add_left _ _)
  | cons_cons record _ inductionHypothesis => exact Nat.add_le_add_left inductionHypothesis _

/-- What is left of records costs no more than all of them. -/
theorem costOf_le_of_suffix {kept records : List Record} (isSuffix : kept <:+ records) :
    costOf kept ≤ costOf records :=
  costOf_le_of_sublist isSuffix.sublist

namespace Ledger

/-- The total is the exact sum, held at the greatest count. -/
theorem toNat_total (ledger : Ledger) :
    ledger.total.toNat = min (costOf ledger.records) 18446744073709551615 := by
  unfold total
  rw [toNat_foldl_saturatingAdd]
  simp

/-- The exact sum of the costs that a ledger holds after it has dropped what is
expired at its front. -/
def held (ledger : Ledger) (now : Instant) : Nat :=
  costOf (ledger.prune now).records

theorem prune_records_suffix (ledger : Ledger) (now : Instant) :
    (ledger.prune now).records <:+ ledger.records :=
  List.dropWhile_suffix _

/-- What is expired stays expired. -/
theorem isExpired_mono
    {ledger : Ledger}
    {earlier later : Instant}
    (ordered : earlier.nanoseconds ≤ later.nanoseconds)
    {record : Record}
    (expired : ledger.isExpired earlier record = true) :
    ledger.isExpired later record = true := by
  unfold isExpired cutoff at *
  rw [decide_eq_true_eq, Instant.nanoseconds_before] at *
  omega

/-- An earlier look at the window makes no difference to a later one. -/
theorem prune_prune
    (ledger : Ledger)
    {earlier later : Instant}
    (ordered : earlier.nanoseconds ≤ later.nanoseconds) :
    (ledger.prune earlier).prune later = ledger.prune later := by
  have sameRecords : ∀ records : List Record,
      (records.dropWhile (ledger.isExpired earlier)).dropWhile (ledger.isExpired later) =
        records.dropWhile (ledger.isExpired later) := by
    intro records
    induction records with
    | nil => rfl
    | cons head tail inductionHypothesis =>
        by_cases expired : ledger.isExpired earlier head = true
        · rw [List.dropWhile_cons_of_pos expired,
            List.dropWhile_cons_of_pos (isExpired_mono ordered expired)]
          exact inductionHypothesis
        · rw [List.dropWhile_cons_of_neg expired]
  show Ledger.mk _ _ _ = Ledger.mk _ _ _
  congr 1
  exact sameRecords ledger.records

@[simp] theorem record_limit (ledger : Ledger) (now : Instant) (cost : UInt64) :
    (ledger.record now cost).limit = ledger.limit := rfl

theorem record_records (ledger : Ledger) (now : Instant) (cost : UInt64) :
    (ledger.record now cost).records = (ledger.prune now).records ++ [⟨now, cost⟩] := rfl

/-- A record adds its cost to what is held then. -/
theorem costOf_record (ledger : Ledger) (now : Instant) (cost : UInt64) :
    costOf (ledger.record now cost).records = ledger.held now + cost.toNat := by
  rw [record_records, costOf_append]
  rfl

theorem held_le (ledger : Ledger) (now : Instant) : ledger.held now ≤ costOf ledger.records :=
  costOf_le_of_suffix (ledger.prune_records_suffix now)

/-- What a refused check says. -/
def refusal (ledger : Ledger) (now : Instant) (cost : UInt64) : Exceeded :=
  { current := (ledger.prune now).total
    requested := cost
    limit := UInt64.ofNat ledger.limit.toInt.toNat }

theorem toNat_refusal_limit (ledger : Ledger) (now : Instant) (cost : UInt64) :
    (ledger.refusal now cost).limit.toNat = ledger.limit.toInt.toNat := by
  have limitLt := ledger.limit.toInt_lt
  simp only [refusal]
  apply UInt64.toNat_ofNat_of_lt'
  show _ < 18446744073709551616
  omega

/-- The check in exact numbers. -/
theorem check_eq (ledger : Ledger) (now : Instant) (cost : UInt64) :
    ledger.check now cost =
      if ledger.limit.toInt ≤ 0 then (.ok (), ledger)
      else if (ledger.held now : Int) + cost.toNat ≤ ledger.limit.toInt then
        (.ok (), ledger.prune now)
      else (.error (ledger.refusal now cost), ledger.prune now) := by
  have limitLt := ledger.limit.toInt_lt
  have limitNat := ledger.toNat_refusal_limit now cost
  simp only [refusal] at limitNat
  unfold check isEnforced
  by_cases enforced : 0 < ledger.limit.toInt
  · rw [if_pos (by simpa using enforced), if_neg (Int.not_le.mpr enforced)]
    simp only [UInt64.lt_iff_toNat_lt, toNat_saturatingAdd, toNat_total, limitNat]
    -- The sum was held at the greatest count only where it is over every limit.
    have overIff :
        ledger.limit.toInt.toNat <
            min (min (costOf (ledger.prune now).records) 18446744073709551615 + cost.toNat)
              18446744073709551615 ↔
          ¬ (ledger.held now : Int) + cost.toNat ≤ ledger.limit.toInt := by
      unfold held
      omega
    by_cases fits : (ledger.held now : Int) + cost.toNat ≤ ledger.limit.toInt
    · rw [if_neg (fun tooMany => overIff.mp tooMany fits), if_pos fits]
    · rw [if_pos (overIff.mpr fits), if_neg fits]
      rfl
  · rw [if_neg (by simpa using enforced), if_pos (Int.not_lt.mp enforced)]

/-- A check passes exactly when no limit is enforced or the cost still fits. -/
theorem check_eq_ok_iff {ledger : Ledger} {now : Instant} {cost : UInt64} :
    (ledger.check now cost).1 = .ok () ↔
      ledger.limit.toInt ≤ 0 ∨ (ledger.held now : Int) + cost.toNat ≤ ledger.limit.toInt := by
  rw [check_eq]
  by_cases unenforced : ledger.limit.toInt ≤ 0
  · simp [unenforced]
  · by_cases fits : (ledger.held now : Int) + cost.toNat ≤ ledger.limit.toInt
    · simp [unenforced, fits]
    · simp [unenforced, fits]

/-- A check that an enforced limit passes leaves room for the cost. -/
theorem costOf_check_le
    {ledger : Ledger}
    {now : Instant}
    {cost : UInt64}
    (enforced : 0 < ledger.limit.toInt)
    (passed : (ledger.check now cost).1 = .ok ()) :
    (costOf (ledger.check now cost).2.records : Int) + cost.toNat ≤ ledger.limit.toInt := by
  have unlimitedOrFits := check_eq_ok_iff.mp passed
  have fits := unlimitedOrFits.resolve_left (Int.not_le.mpr enforced)
  rw [check_eq, if_neg (Int.not_le.mpr enforced), if_pos fits]
  exact fits

/-- A check looks at the records only where a limit is enforced. -/
theorem check_snd (ledger : Ledger) (now : Instant) (cost : UInt64) :
    (ledger.check now cost).2 =
      if ledger.limit.toInt ≤ 0 then ledger else ledger.prune now := by
  rw [check_eq]
  split
  · rfl
  · split <;> rfl

@[simp] theorem check_limit (ledger : Ledger) (now : Instant) (cost : UInt64) :
    (ledger.check now cost).2.limit = ledger.limit := by
  rw [check_snd]
  split <;> rfl

theorem prune_check
    (ledger : Ledger)
    {earlier later : Instant}
    (cost : UInt64)
    (ordered : earlier.nanoseconds ≤ later.nanoseconds) :
    (ledger.check earlier cost).2.prune later = ledger.prune later := by
  rw [check_snd]
  split
  · rfl
  · exact ledger.prune_prune ordered

/-- A check adds no record: what it leaves is the end of what was there. -/
theorem check_records_suffix (ledger : Ledger) (now : Instant) (cost : UInt64) :
    (ledger.check now cost).2.records <:+ ledger.records := by
  rw [check_snd]
  split
  · exact List.suffix_refl _
  · exact ledger.prune_records_suffix now

end Ledger

end Precis.Usage

import Precis.Proofs.Usage.Total

/-!
Contract: a ledger that forgets agrees with one that does not.

This module owns the chronicle: a ledger over unbounded numbers that keeps all
entries for ever and looks back over the window as it was given, without the
limits of the calendar. As long as the clock does not go back, a ledger answers
every run of operations as the chronicle does, and what it stores after it has
pruned is exactly what the chronicle finds within the window.

The relation between the two is `Tracks`: what the ledger has dropped is the
oldest part of the chronicle, and all of it has expired.
-/

namespace Precis.Usage

/-- Something that a ledger is asked to do. -/
inductive Operation where
  | record (cost : UInt64)
  | usage
  | check (cost : UInt64)
deriving DecidableEq, Repr

/-- An operation, and what the clock shows when it is carried out. -/
structure Step where
  now : Instant
  operation : Operation
deriving DecidableEq, Repr

/-- What an operation answers, in unbounded numbers. -/
inductive Answer where
  | recorded
  | usage (total : Nat)
  | allowed
  | refused (current requested : Nat) (limit : Int)
deriving DecidableEq, Repr

/-- The answers to operations that are carried out one after another, and the
state after the last. -/
def runSteps {σ : Type} (perform : σ → Step → Answer × σ) : σ → List Step → List Answer × σ
  | state, [] => ([], state)
  | state, step :: rest =>
      let (answer, next) := perform state step
      let (answers, final) := runSteps perform next rest
      (answer :: answers, final)

theorem runSteps_concat_snd
    {σ : Type}
    (perform : σ → Step → Answer × σ)
    (state : σ)
    (steps : List Step)
    (last : Step) :
    (runSteps perform state (steps ++ [last])).2 =
      (perform (runSteps perform state steps).2 last).2 := by
  induction steps generalizing state with
  | nil => rfl
  | cons head tail inductionHypothesis => exact inductionHypothesis (perform state head).2

/-- The verdict of a check as an answer. -/
def Answer.ofVerdict : Except Exceeded Unit → Answer
  | .ok () => .allowed
  | .error exceeded =>
      .refused exceeded.current.toNat exceeded.requested.toNat exceeded.limit.toNat

/-- Carries out an operation on a ledger. -/
def Ledger.perform (ledger : Ledger) (step : Step) : Answer × Ledger :=
  match step.operation with
  | .record cost => (.recorded, ledger.record step.now cost)
  | .usage =>
      let (total, after) := ledger.usage step.now
      (.usage total.toNat, after)
  | .check cost =>
      let (verdict, after) := ledger.check step.now cost
      (.ofVerdict verdict, after)

/-- Whether an operation looks at the records of a ledger with the given limit. -/
def Operation.Prunes (operation : Operation) (limit : Int) : Prop :=
  match operation with
  | .check _ => 0 < limit
  | _ => True

/-! ### The chronicle -/

/-- A time and a cost, in unbounded numbers. -/
structure Entry where
  time : Int
  cost : Nat
deriving DecidableEq, Repr

/-- The entry that a record makes. -/
def Record.entry (record : Record) : Entry :=
  { time := record.time.nanoseconds, cost := record.cost.toNat }

/-- The sum of the costs of entries. -/
def entrySum : List Entry → Nat
  | [] => 0
  | entry :: rest => entry.cost + entrySum rest

theorem entrySum_map_entry (records : List Record) :
    entrySum (records.map Record.entry) = costOf records := by
  induction records with
  | nil => rfl
  | cons head tail inductionHypothesis =>
      simp only [List.map_cons, entrySum, costOf, Record.entry, inductionHypothesis]

/-- A ledger over unbounded numbers that keeps every entry. -/
structure Chronicle where
  window : Nat
  limit : Int
  entries : List Entry
deriving DecidableEq, Repr

namespace Chronicle

/-- A chronicle without entries. -/
def empty (window : Duration) (limit : Int64) : Chronicle :=
  { window := window.nanoseconds, limit := limit.toInt, entries := [] }

/-- The entries within the window. The oldest time that still counts is included. -/
def live (chronicle : Chronicle) (now : Int) : List Entry :=
  chronicle.entries.filter fun entry => decide (now - chronicle.window ≤ entry.time)

/-- The sum of the costs within the window. -/
def usage (chronicle : Chronicle) (now : Int) : Nat :=
  entrySum (chronicle.live now)

/-- Carries out an operation on a chronicle. A sum is answered up to the greatest count. -/
def perform (chronicle : Chronicle) (step : Step) : Answer × Chronicle :=
  let now := step.now.nanoseconds
  let current := min (chronicle.usage now) 18446744073709551615
  match step.operation with
  | .record cost =>
      (.recorded, { chronicle with entries := chronicle.entries ++ [⟨now, cost.toNat⟩] })
  | .usage => (.usage current, chronicle)
  | .check cost =>
      if chronicle.limit ≤ 0 ∨ (chronicle.usage now : Int) + cost.toNat ≤ chronicle.limit then
        (.allowed, chronicle)
      else (.refused current cost.toNat chronicle.limit, chronicle)

theorem perform_check_snd (chronicle : Chronicle) (now : Instant) (cost : UInt64) :
    (chronicle.perform ⟨now, .check cost⟩).2 = chronicle := by
  simp only [perform]
  split <;> rfl

/-- A fresh entry lies within the window. -/
theorem live_perform_record (chronicle : Chronicle) (now : Instant) (cost : UInt64) :
    (chronicle.perform ⟨now, .record cost⟩).2.live now.nanoseconds =
      chronicle.live now.nanoseconds ++ [⟨now.nanoseconds, cost.toNat⟩] := by
  have inWindow : now.nanoseconds - chronicle.window ≤ now.nanoseconds := by omega
  show (chronicle.entries ++ [Entry.mk now.nanoseconds cost.toNat]).filter
    (fun entry => decide (now.nanoseconds - chronicle.window ≤ entry.time)) = _
  rw [List.filter_append, List.filter_cons_of_pos (by exact decide_eq_true inWindow)]
  rfl

theorem perform_limit (chronicle : Chronicle) (step : Step) :
    (chronicle.perform step).2.limit = chronicle.limit := by
  obtain ⟨now, operation⟩ := step
  cases operation with
  | record cost => rfl
  | usage => rfl
  | check cost => rw [perform_check_snd]

theorem runSteps_limit (chronicle : Chronicle) (steps : List Step) :
    (runSteps perform chronicle steps).2.limit = chronicle.limit := by
  induction steps generalizing chronicle with
  | nil => rfl
  | cons head tail inductionHypothesis =>
      exact (inductionHypothesis (chronicle.perform head).2).trans (chronicle.perform_limit head)

end Chronicle

/-! ### What has expired -/

/-- No window that is cut down, and no start of the calendar, changes which
records are expired: the calendar is shorter than the longest window. -/
theorem Ledger.isExpired_iff
    {ledger : Ledger}
    {window : Nat}
    (windowEq : ledger.window.nanoseconds = min window Ledger.longestWindow.nanoseconds)
    (now : Instant)
    (record : Record) :
    ledger.isExpired now record = true ↔ record.time.nanoseconds < now.nanoseconds - window := by
  have nowLe := now.le_latest
  have timeGe := record.time.earliest_le
  unfold Ledger.isExpired Ledger.cutoff
  rw [decide_eq_true_eq, Instant.nanoseconds_before, windowEq]
  simp only [Ledger.longestWindow, Instant.earliestNanoseconds, Instant.latestNanoseconds] at *
  omega

/-- Where times only rise, dropping from the front is the same as dropping everywhere. -/
theorem dropWhile_eq_filter_of_sorted
    {records : List Record}
    {expired : Record → Bool}
    {oldest : Int}
    (expiredIff : ∀ record, expired record = true ↔ record.time.nanoseconds < oldest)
    (sorted : records.Pairwise fun earlier later =>
      earlier.time.nanoseconds ≤ later.time.nanoseconds) :
    records.dropWhile expired =
      records.filter fun record => decide (oldest ≤ record.time.nanoseconds) := by
  induction records with
  | nil => rfl
  | cons head tail inductionHypothesis =>
      obtain ⟨headLe, tailSorted⟩ := List.pairwise_cons.mp sorted
      by_cases headExpired : expired head = true
      · have headOld := (expiredIff head).mp headExpired
        rw [List.dropWhile_cons_of_pos headExpired, inductionHypothesis tailSorted,
          List.filter_cons_of_neg (by simpa using headOld)]
      · have headKept : oldest ≤ head.time.nanoseconds :=
          Int.not_lt.mp fun old => headExpired ((expiredIff head).mpr old)
        have allKept : ∀ record ∈ head :: tail,
            decide (oldest ≤ record.time.nanoseconds) = true := by
          intro record member
          rcases List.mem_cons.mp member with rfl | later
          · exact decide_eq_true headKept
          · exact decide_eq_true (Int.le_trans headKept (headLe record later))
        rw [List.dropWhile_cons_of_neg headExpired, List.filter_eq_self.mpr allKept]

/-! ### The relation -/

/-- A ledger holds the end of a chronicle. What is missing had expired by the
time `latest`, and nothing is newer than that. -/
structure Tracks (ledger : Ledger) (chronicle : Chronicle) (latest : Int) : Prop where
  limit_eq : ledger.limit.toInt = chronicle.limit
  window_eq :
    ledger.window.nanoseconds = min chronicle.window Ledger.longestWindow.nanoseconds
  kept :
    ∃ dropped, chronicle.entries = dropped ++ ledger.records.map Record.entry ∧
      ∀ entry ∈ dropped, entry.time < latest - chronicle.window
  sorted :
    ledger.records.Pairwise fun earlier later => earlier.time.nanoseconds ≤ later.time.nanoseconds
  le_latest : ∀ record ∈ ledger.records, record.time.nanoseconds ≤ latest

namespace Tracks

theorem empty (window : Duration) (limit : Int64) (latest : Int) :
    Tracks (.empty window limit) (.empty window limit) latest where
  limit_eq := rfl
  window_eq := rfl
  kept := ⟨[], rfl, by simp⟩
  sorted := List.Pairwise.nil
  le_latest := by simp [Ledger.empty]

theorem mono
    {ledger : Ledger}
    {chronicle : Chronicle}
    {latest now : Int}
    (tracks : Tracks ledger chronicle latest)
    (later : latest ≤ now) :
    Tracks ledger chronicle now where
  limit_eq := tracks.limit_eq
  window_eq := tracks.window_eq
  kept := by
    obtain ⟨dropped, split, expired⟩ := tracks.kept
    refine ⟨dropped, split, fun entry member => ?_⟩
    have old := expired entry member
    omega
  sorted := tracks.sorted
  le_latest := fun record member => Int.le_trans (tracks.le_latest record member) later

variable {ledger : Ledger} {chronicle : Chronicle} {now : Instant}

theorem prune_records (tracks : Tracks ledger chronicle now.nanoseconds) :
    (ledger.prune now).records =
      ledger.records.filter fun record =>
        decide (now.nanoseconds - chronicle.window ≤ record.time.nanoseconds) :=
  dropWhile_eq_filter_of_sorted (Ledger.isExpired_iff tracks.window_eq now) tracks.sorted

/-- What a ledger stores once it has pruned is what lies within the window. -/
theorem map_entry_prune (tracks : Tracks ledger chronicle now.nanoseconds) :
    (ledger.prune now).records.map Record.entry = chronicle.live now.nanoseconds := by
  obtain ⟨dropped, split, expired⟩ := tracks.kept
  have noneDropped :
      dropped.filter (fun entry => decide (now.nanoseconds - chronicle.window ≤ entry.time)) =
        [] := by
    rw [List.filter_eq_nil_iff]
    intro entry member
    have old := expired entry member
    rw [decide_eq_true_eq]
    omega
  rw [tracks.prune_records, Chronicle.live, split, List.filter_append, noneDropped,
    List.nil_append, List.filter_map]
  rfl

theorem held_eq_usage (tracks : Tracks ledger chronicle now.nanoseconds) :
    ledger.held now = chronicle.usage now.nanoseconds := by
  unfold Ledger.held Chronicle.usage
  rw [← tracks.map_entry_prune, entrySum_map_entry]

theorem toNat_total_prune (tracks : Tracks ledger chronicle now.nanoseconds) :
    (ledger.prune now).total.toNat =
      min (chronicle.usage now.nanoseconds) 18446744073709551615 := by
  rw [Ledger.toNat_total, ← tracks.held_eq_usage]
  rfl

theorem prune (tracks : Tracks ledger chronicle now.nanoseconds) :
    Tracks (ledger.prune now) chronicle now.nanoseconds where
  limit_eq := tracks.limit_eq
  window_eq := tracks.window_eq
  kept := by
    obtain ⟨dropped, split, expired⟩ := tracks.kept
    refine ⟨dropped ++ (ledger.records.takeWhile (ledger.isExpired now)).map Record.entry, ?_, ?_⟩
    · rw [split, List.append_assoc, ← List.map_append]
      congr 2
      exact List.takeWhile_append_dropWhile.symm
    · intro entry member
      rcases List.mem_append.mp member with old | fresh
      · exact expired entry old
      · obtain ⟨record, taken, rfl⟩ := List.mem_map.mp fresh
        have isExpired := List.all_eq_true.mp List.all_takeWhile record taken
        exact (Ledger.isExpired_iff tracks.window_eq now record).mp isExpired
  sorted := tracks.sorted.sublist (ledger.prune_records_suffix now).sublist
  le_latest := fun record member =>
    tracks.le_latest record ((ledger.prune_records_suffix now).subset member)

theorem record (tracks : Tracks ledger chronicle now.nanoseconds) (cost : UInt64) :
    Tracks (ledger.record now cost) (chronicle.perform ⟨now, .record cost⟩).2
      now.nanoseconds where
  limit_eq := tracks.limit_eq
  window_eq := tracks.window_eq
  kept := by
    obtain ⟨dropped, split, expired⟩ := tracks.prune.kept
    refine ⟨dropped, ?_, expired⟩
    simp only [Chronicle.perform]
    rw [split, Ledger.record_records, List.map_append, List.append_assoc]
    rfl
  sorted := by
    rw [Ledger.record_records, List.pairwise_append]
    refine ⟨tracks.prune.sorted, List.pairwise_singleton _ _, ?_⟩
    intro earlier member later last
    rw [List.mem_singleton.mp last]
    exact tracks.prune.le_latest earlier member
  le_latest := by
    intro record member
    rw [Ledger.record_records] at member
    rcases List.mem_append.mp member with old | last
    · exact tracks.prune.le_latest record old
    · have newest := List.mem_singleton.mp last
      subst newest
      exact Int.le_refl _

theorem check (tracks : Tracks ledger chronicle now.nanoseconds) (cost : UInt64) :
    Tracks (ledger.check now cost).2 chronicle now.nanoseconds := by
  rw [Ledger.check_snd]
  split
  · exact tracks
  · exact tracks.prune

theorem verdict_eq (tracks : Tracks ledger chronicle now.nanoseconds) (cost : UInt64) :
    Answer.ofVerdict (ledger.check now cost).1 = (chronicle.perform ⟨now, .check cost⟩).1 := by
  have limitNat := ledger.toNat_refusal_limit now cost
  rw [Ledger.check_eq, tracks.limit_eq, tracks.held_eq_usage]
  simp only [Chronicle.perform]
  by_cases unenforced : chronicle.limit ≤ 0
  · rw [if_pos unenforced, if_pos (Or.inl unenforced)]
    rfl
  · rw [if_neg unenforced]
    by_cases fits : (chronicle.usage now.nanoseconds : Int) + cost.toNat ≤ chronicle.limit
    · rw [if_pos fits, if_pos (Or.inr fits)]
      rfl
    · rw [if_neg fits, if_neg (fun either => either.elim unenforced fits)]
      have limitInt : ((ledger.refusal now cost).limit.toNat : Int) = chronicle.limit := by
        rw [limitNat, tracks.limit_eq]
        omega
      simp only [Answer.ofVerdict, limitInt]
      simp only [Ledger.refusal, tracks.toNat_total_prune]

/-- An operation is answered as by the chronicle, and the relation goes on to hold. -/
theorem perform {step : Step} (tracks : Tracks ledger chronicle step.now.nanoseconds) :
    (ledger.perform step).1 = (chronicle.perform step).1 ∧
      Tracks (ledger.perform step).2 (chronicle.perform step).2 step.now.nanoseconds := by
  obtain ⟨now, operation⟩ := step
  cases operation with
  | record cost => exact ⟨rfl, tracks.record cost⟩
  | usage =>
      refine ⟨?_, tracks.prune⟩
      show Answer.usage (ledger.prune now).total.toNat = _
      rw [tracks.toNat_total_prune]
      rfl
  | check cost =>
      refine ⟨tracks.verdict_eq cost, ?_⟩
      rw [chronicle.perform_check_snd]
      exact tracks.check cost

/-- After an operation that prunes, exactly what lies within the window is stored. -/
theorem stored_eq_live
    {step : Step}
    (tracks : Tracks ledger chronicle step.now.nanoseconds)
    (prunes : step.operation.Prunes ledger.limit.toInt) :
    (ledger.perform step).2.records.map Record.entry =
      (chronicle.perform step).2.live step.now.nanoseconds := by
  obtain ⟨now, operation⟩ := step
  cases operation with
  | record cost =>
      show (ledger.record now cost).records.map Record.entry = _
      rw [Ledger.record_records, List.map_append, tracks.map_entry_prune,
        chronicle.live_perform_record]
      rfl
  | usage => exact tracks.map_entry_prune
  | check cost =>
      have pruned : (ledger.check now cost).2 = ledger.prune now := by
        rw [Ledger.check_snd, if_neg (Int.not_le.mpr prunes)]
      rw [chronicle.perform_check_snd]
      show (ledger.check now cost).2.records.map Record.entry = _
      rw [pruned]
      exact tracks.map_entry_prune

/-- A run of operations is answered as by the chronicle. -/
theorem runSteps
    {ledger : Ledger}
    {chronicle : Chronicle}
    {latest : Int}
    (tracks : Tracks ledger chronicle latest)
    (steps : List Step)
    (nondecreasing : steps.Pairwise fun earlier later =>
      earlier.now.nanoseconds ≤ later.now.nanoseconds)
    (later : ∀ step ∈ steps, latest ≤ step.now.nanoseconds) :
    (runSteps Ledger.perform ledger steps).1 = (runSteps Chronicle.perform chronicle steps).1 ∧
      ∀ now, latest ≤ now → (∀ step ∈ steps, step.now.nanoseconds ≤ now) →
        Tracks (Usage.runSteps Ledger.perform ledger steps).2
          (Usage.runSteps Chronicle.perform chronicle steps).2 now := by
  -- Each step moves `latest` on to its own moment, which no later step lies before.
  induction steps generalizing ledger chronicle latest with
  | nil => exact ⟨rfl, fun now latestLe _ => tracks.mono latestLe⟩
  | cons head tail inductionHypothesis =>
      obtain ⟨headLe, tailNondecreasing⟩ := List.pairwise_cons.mp nondecreasing
      obtain ⟨answerEq, next⟩ := (tracks.mono (later head (by simp))).perform
      obtain ⟨answersEq, final⟩ := inductionHypothesis next tailNondecreasing headLe
      refine ⟨?_, fun now _ all => ?_⟩
      · simp only [Usage.runSteps]
        rw [answerEq, answersEq]
      · apply final now (all head (by simp))
        intro step member
        exact all step (List.mem_cons_of_mem head member)

end Tracks

/-- Where the clock does not go back, a ledger that begins without records
answers every operation as the chronicle over unbounded numbers does. After
each operation that prunes it stores exactly what lies within the window, in
the order of recording, which is the order of time. -/
theorem answers_eq_chronicle
    (window : Duration)
    (limit : Int64)
    (steps : List Step)
    (nondecreasing : steps.Pairwise fun earlier later =>
      earlier.now.nanoseconds ≤ later.now.nanoseconds) :
    (runSteps Ledger.perform (.empty window limit) steps).1 =
        (runSteps Chronicle.perform (.empty window limit) steps).1 ∧
      ∀ before last, before ++ [last] <+: steps → last.operation.Prunes limit.toInt →
        let ledger := (runSteps Ledger.perform (.empty window limit) (before ++ [last])).2
        let chronicle := (runSteps Chronicle.perform (.empty window limit) (before ++ [last])).2
        ledger.records.map Record.entry = chronicle.live last.now.nanoseconds ∧
          ledger.records.Pairwise fun earlier later =>
            earlier.time.nanoseconds ≤ later.time.nanoseconds := by
  have start := Tracks.empty window limit Instant.earliestNanoseconds
  refine ⟨(start.runSteps steps nondecreasing fun step _ => step.now.earliest_le).1, ?_⟩
  intro before last isPrefix prunes
  have ordered := nondecreasing.sublist isPrefix.sublist
  obtain ⟨beforeOrdered, -, beforeLe⟩ := List.pairwise_append.mp ordered
  have tracks :=
    (start.runSteps before beforeOrdered fun step _ => step.now.earliest_le).2
      last.now.nanoseconds last.now.earliest_le fun step member =>
        beforeLe step member last (by simp)
  rw [runSteps_concat_snd, runSteps_concat_snd]
  refine ⟨tracks.stored_eq_live ?_, tracks.perform.2.sorted⟩
  rw [tracks.limit_eq, Chronicle.runSteps_limit]
  exact prunes

/-- At the greatest limit, with the longest possible window, from the first
moment of the calendar to the last: a sum that passes the greatest count is
answered as the greatest count, and refuses everything. -/
theorem answers_at_the_limits :
    let steps : List Step :=
      [⟨.earliest, .record 18446744073709551615⟩, ⟨.earliest, .record 5⟩, ⟨.latest, .usage⟩,
        ⟨.latest, .check 1⟩]
    (steps.Pairwise fun earlier later => earlier.now.nanoseconds ≤ later.now.nanoseconds) ∧
      (runSteps Ledger.perform
          (.empty ⟨18446744073709551615999999999⟩ 9223372036854775807) steps).1 =
        [.recorded, .recorded, .usage 18446744073709551615,
          .refused 18446744073709551615 1 9223372036854775807] :=
  ⟨by decide, (answers_eq_chronicle _ _ _ (by decide)).1.trans (by decide)⟩

end Precis.Usage

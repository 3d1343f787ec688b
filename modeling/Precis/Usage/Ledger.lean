import Precis.Time

/-!
Contract: the ledger of used tokens.

This module owns the sliding window of usage. A ledger holds the records of
accepted consumption, in the order in which they were made, and a limit on
their sum. Records older than the window are dropped from the front, lazily, by
the next operation that looks at the sum or adds a record. Landing exactly on
the limit is allowed; a limit of zero or below switches the check off. The
checks here record nothing: whoever does the gated work records its cost.
-/

namespace Precis.Usage

/-- The sum of two counts, held at the greatest count where it would pass it. -/
def saturatingAdd (left right : UInt64) : UInt64 :=
  UInt64.ofNat (min (left.toNat + right.toNat) 18446744073709551615)

theorem toNat_saturatingAdd (left right : UInt64) :
    (saturatingAdd left right).toNat =
      min (left.toNat + right.toNat) 18446744073709551615 := by
  unfold saturatingAdd
  rw [UInt64.toNat_ofNat_of_lt']
  exact Nat.lt_of_le_of_lt (Nat.min_le_right _ _) (by decide)

structure Record where
  time : Instant
  cost : UInt64
deriving DecidableEq, Repr

structure Exceeded where
  current : UInt64
  requested : UInt64
  limit : UInt64
deriving DecidableEq, Repr

def Exceeded.message (exceeded : Exceeded) : String :=
  "token limit exceeded: " ++ toString exceeded.current.toNat ++ " used + " ++
    toString exceeded.requested.toNat ++ " requested > " ++
    toString exceeded.limit.toNat ++ " allowed"

/-- Records of usage, oldest first, with the window and the limit that judge them. -/
structure Ledger where
  window : Duration
  limit : Int64
  records : List Record
deriving DecidableEq, Repr

namespace Ledger

/-- The longest window that a ledger keeps: 2^63 - 1 milliseconds. -/
def longestWindow : Duration := ⟨9223372036854775807 * 1000000⟩

def empty (window : Duration) (limit : Int64) : Ledger :=
  { window := ⟨min window.nanoseconds longestWindow.nanoseconds⟩, limit, records := [] }

def isEnforced (ledger : Ledger) : Bool :=
  decide (0 < ledger.limit.toInt)

def cutoff (ledger : Ledger) (now : Instant) : Instant :=
  now.before ledger.window

def isExpired (ledger : Ledger) (now : Instant) (record : Record) : Bool :=
  decide (record.time.nanoseconds < (ledger.cutoff now).nanoseconds)

/-- The ledger without the expired records at its front. -/
def prune (ledger : Ledger) (now : Instant) : Ledger :=
  { ledger with records := ledger.records.dropWhile (ledger.isExpired now) }

def total (ledger : Ledger) : UInt64 :=
  ledger.records.foldl (fun sum record => saturatingAdd sum record.cost) 0

/-- Adds a record of the given cost. It is never refused. -/
def record (ledger : Ledger) (now : Instant) (cost : UInt64) : Ledger :=
  let pruned := ledger.prune now
  { pruned with records := pruned.records ++ [⟨now, cost⟩] }

/-- The sum of the costs within the window, and the ledger after the question. -/
def usage (ledger : Ledger) (now : Instant) : UInt64 × Ledger :=
  let pruned := ledger.prune now
  (pruned.total, pruned)

/-- Whether a further cost stays within the limit, and the ledger after the
question. A limit that is not enforced is not looked at. -/
def check (ledger : Ledger) (now : Instant) (cost : UInt64) : Except Exceeded Unit × Ledger :=
  if ledger.isEnforced then
    let pruned := ledger.prune now
    let current := pruned.total
    let limit := UInt64.ofNat ledger.limit.toInt.toNat
    if limit < saturatingAdd current cost then
      (.error { current, requested := cost, limit }, pruned)
    else (.ok (), pruned)
  else (.ok (), ledger)

end Ledger

end Precis.Usage

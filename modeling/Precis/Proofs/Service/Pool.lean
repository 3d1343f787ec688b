import Mathlib.Data.List.Nodup
import Mathlib.Data.String.Basic
import Precis.Service.Pool

/-!
Contract: what the entries of a pool keep.

This module owns the two facts that hold of every pool that was built, and of
every pool after it was closed: no name is taken twice, and each entry leads to
a connection that was opened. From them it follows that the snapshot of a pool
lists exactly what lookups find, in the ascending order of names.
-/

namespace Precis.Service

namespace Pool

variable {κ : Type}

/-- No name is taken twice, and each entry leads to an opened connection. -/
structure WellFormed (pool : Pool κ) : Prop where
  distinct : (pool.entries.map PoolEntry.name).Nodup
  opened : ∀ entry ∈ pool.entries, entry.handle < pool.opened.length

theorem WellFormed.empty : (Pool.empty : Pool κ).WellFormed where
  distinct := List.nodup_nil
  opened := by simp [Pool.empty]

/-- A pool that has let go of its connections is well formed. -/
theorem WellFormed.close (pool : Pool κ) : pool.close.WellFormed where
  distinct := List.nodup_nil
  opened := by simp [Pool.close]

theorem entry?_eq_none_iff {pool : Pool κ} {name : String} :
    pool.entry? name = none ↔ name ∉ pool.entries.map PoolEntry.name := by
  unfold entry?
  simp

theorem entry?_isSome_iff {pool : Pool κ} {name : String} :
    (pool.entry? name).isSome ↔ name ∈ pool.entries.map PoolEntry.name := by
  rw [Option.isSome_iff_ne_none, Ne, entry?_eq_none_iff, not_not]

theorem mem_of_entry?_eq_some
    {pool : Pool κ}
    {name : String}
    {entry : PoolEntry}
    (found : pool.entry? name = some entry) :
    entry ∈ pool.entries ∧ entry.name = name :=
  ⟨List.mem_of_find?_eq_some found, by simpa using List.find?_some found⟩

theorem WellFormed.add
    {pool : Pool κ}
    (wellFormed : pool.WellFormed)
    {config : ServiceConfig}
    (free : pool.entry? config.name = none)
    (connection : κ) :
    (pool.add config connection).WellFormed where
  distinct := by
    simp only [Pool.add, List.map_append, List.map_cons, List.map_nil]
    rw [List.nodup_append]
    refine ⟨wellFormed.distinct, List.nodup_singleton _, ?_⟩
    intro taken member name fresh same
    rw [List.mem_singleton] at fresh
    rw [same, fresh] at member
    exact entry?_eq_none_iff.mp free member
  opened := by
    intro entry member
    simp only [Pool.add, List.mem_append, List.mem_singleton, List.length_append,
      List.length_singleton] at member ⊢
    rcases member with old | rfl
    · exact Nat.lt_succ_of_lt (wellFormed.opened entry old)
    · exact Nat.lt_succ_self _

theorem WellFormed.buildFrom
    {connector : Connector κ}
    {pool : Pool κ}
    {asked : List (String × String)}
    (configs : List ServiceConfig)
    (wellFormed : pool.WellFormed) :
    (Pool.buildFrom connector pool asked configs).pool.WellFormed := by
  induction configs generalizing pool asked with
  | nil => exact wellFormed
  | cons config rest inductionHypothesis =>
      unfold Pool.buildFrom
      split
      case isTrue => exact .close pool
      case isFalse free =>
        simp only
        split
        case h_1 => exact .close pool
        case h_2 => exact inductionHypothesis (wellFormed.add (by simpa using free) _)

/-- Whatever a connector does, what comes of building a pool is well formed. -/
theorem WellFormed.build (connector : Connector κ) (configs : List ServiceConfig) :
    (Pool.build connector configs).pool.WellFormed :=
  .buildFrom configs .empty

/-! ### The snapshot -/

theorem perm_insertEntry (entry : PoolEntry) (entries : List PoolEntry) :
    (insertEntry entry entries).Perm (entry :: entries) := by
  induction entries with
  | nil => exact .refl _
  | cons head tail inductionHypothesis =>
      unfold insertEntry
      split
      · exact (inductionHypothesis.cons head).trans (.swap entry head tail)
      · exact .refl _

theorem perm_sortedEntries (pool : Pool κ) : pool.sortedEntries.Perm pool.entries := by
  unfold sortedEntries
  induction pool.entries with
  | nil => exact .refl _
  | cons head tail inductionHypothesis =>
      exact (perm_insertEntry head _).trans (inductionHypothesis.cons head)

theorem insertEntry_sorted
    {entry : PoolEntry}
    {entries : List PoolEntry}
    (sorted : entries.Pairwise fun earlier later => earlier.name ≤ later.name) :
    (insertEntry entry entries).Pairwise fun earlier later => earlier.name ≤ later.name := by
  induction entries with
  | nil => exact List.pairwise_singleton _ _
  | cons head tail inductionHypothesis =>
      obtain ⟨headLe, tailSorted⟩ := List.pairwise_cons.mp sorted
      unfold insertEntry
      split
      case isTrue before =>
        refine List.pairwise_cons.mpr ⟨?_, inductionHypothesis tailSorted⟩
        intro later member
        rcases List.mem_cons.mp ((perm_insertEntry entry tail).mem_iff.mp member) with rfl | old
        · exact le_of_lt before
        · exact headLe later old
      case isFalse notBefore =>
        have entryLe : entry.name ≤ head.name := not_lt.mp notBefore
        refine List.pairwise_cons.mpr ⟨?_, sorted⟩
        intro later member
        rcases List.mem_cons.mp member with rfl | old
        · exact entryLe
        · exact le_trans entryLe (headLe later old)

theorem sortedEntries_sorted (pool : Pool κ) :
    pool.sortedEntries.Pairwise fun earlier later => earlier.name ≤ later.name := by
  unfold sortedEntries
  induction pool.entries with
  | nil => exact List.Pairwise.nil
  | cons head tail inductionHypothesis => exact insertEntry_sorted inductionHypothesis

theorem WellFormed.names_ascending {pool : Pool κ} (wellFormed : pool.WellFormed) :
    pool.names.Pairwise (· < ·) := by
  have distinct : pool.names.Nodup :=
    (pool.perm_sortedEntries.map PoolEntry.name).nodup_iff.mpr wellFormed.distinct
  have sorted : pool.names.Pairwise (· ≤ ·) := List.pairwise_map.mpr pool.sortedEntries_sorted
  exact (sorted.and distinct).imp fun both => lt_of_le_of_ne both.1 both.2

theorem WellFormed.entry?_eq_some_iff
    {pool : Pool κ}
    (wellFormed : pool.WellFormed)
    {name : String}
    {entry : PoolEntry} :
    pool.entry? name = some entry ↔ entry ∈ pool.entries ∧ entry.name = name := by
  constructor
  · exact mem_of_entry?_eq_some
  · rintro ⟨member, rfl⟩
    cases found : pool.entry? entry.name with
    | none =>
        exact absurd (List.mem_map_of_mem member) (entry?_eq_none_iff.mp found)
    | some other =>
        obtain ⟨otherMember, sameName⟩ := mem_of_entry?_eq_some found
        rw [List.inj_on_of_nodup_map wellFormed.distinct otherMember member sameName]

theorem mem_names_iff {pool : Pool κ} {name : String} :
    name ∈ pool.names ↔ name ∈ pool.entries.map PoolEntry.name :=
  (pool.perm_sortedEntries.map PoolEntry.name).mem_iff

theorem length_names (pool : Pool κ) : pool.names.length = pool.size := by
  rw [names, List.length_map, pool.perm_sortedEntries.length_eq, size]

theorem isEmpty_iff {pool : Pool κ} : pool.isEmpty = true ↔ pool.names = [] := by
  rw [isEmpty, List.isEmpty_iff_length_eq_zero, ← List.length_eq_zero_iff, length_names, size]

theorem WellFormed.connection?_isSome_iff
    {pool : Pool κ}
    (wellFormed : pool.WellFormed)
    {name : String} :
    (pool.connection? name).isSome ↔ name ∈ pool.names := by
  rw [mem_names_iff, ← entry?_isSome_iff]
  cases found : pool.entry? name with
  | none => simp [connection?, handle?, found]
  | some entry =>
      have within := wellFormed.opened entry (mem_of_entry?_eq_some found).1
      simp [connection?, handle?, held?, found, within]

theorem client?_eq_some_iff
    {pool : Pool κ}
    {name : String}
    {kind : ClientKind}
    {place : Nat} :
    pool.client? name kind = some place ↔
      ∃ entry, pool.entry? name = some entry ∧ entry.kind = kind ∧ entry.handle = place := by
  cases found : pool.entry? name with
  | none => simp [client?, found]
  | some entry => simp [client?, found]

theorem handle?_of_client?
    {pool : Pool κ}
    {name : String}
    {kind : ClientKind}
    {place : Nat}
    (found : pool.client? name kind = some place) :
    pool.handle? name = some place := by
  obtain ⟨entry, entryFound, _, rfl⟩ := client?_eq_some_iff.mp found
  rw [handle?, entryFound]
  rfl

theorem toOption_requireClient (pool : Pool κ) (name : String) (kind : ClientKind) :
    (pool.requireClient name kind).toOption = pool.client? name kind := by
  unfold requireClient
  cases pool.client? name kind with
  | none => rfl
  | some place => rfl

/-- The snapshot lists what lookups find. -/
theorem WellFormed.mem_connections_iff
    {pool : Pool κ}
    (wellFormed : pool.WellFormed)
    {name : String}
    {held : Held κ} :
    (name, held) ∈ pool.connections ↔ pool.connection? name = some held := by
  unfold connections connection? handle?
  constructor
  · intro member
    obtain ⟨entry, entryMember, found⟩ := List.mem_filterMap.mp member
    obtain ⟨_, heldEq, same⟩ := Option.map_eq_some_iff.mp found
    obtain ⟨rfl, rfl⟩ := Prod.mk.inj same
    have inPool := pool.perm_sortedEntries.mem_iff.mp entryMember
    rw [wellFormed.entry?_eq_some_iff.mpr ⟨inPool, rfl⟩]
    exact heldEq
  · intro found
    obtain ⟨handle, handleEq, heldEq⟩ := Option.bind_eq_some_iff.mp found
    obtain ⟨entry, entryEq, rfl⟩ := Option.map_eq_some_iff.mp handleEq
    obtain ⟨inPool, rfl⟩ := wellFormed.entry?_eq_some_iff.mp entryEq
    refine List.mem_filterMap.mpr ⟨entry, pool.perm_sortedEntries.mem_iff.mpr inPool, ?_⟩
    rw [heldEq]
    rfl

theorem WellFormed.map_fst_connections {pool : Pool κ} (wellFormed : pool.WellFormed) :
    pool.connections.map Prod.fst = pool.names := by
  unfold connections names
  rw [List.map_filterMap, ← List.filterMap_eq_map]
  refine List.filterMap_congr fun entry member => ?_
  have inPool := pool.perm_sortedEntries.mem_iff.mp member
  unfold held?
  rw [List.getElem?_eq_getElem (wellFormed.opened entry inPool)]
  rfl

end Pool

end Precis.Service

import Precis.Model.Id
import Precis.Settings.Error

/-!
Contract: the catalog of models.

This module owns the table that says what each model is called by its provider
and how much input it takes, and the order in which models are tried. A catalog
cannot be made unless every model of the order is described and none occurs
twice; both facts are part of the type. Where a model is described more than
once the last description counts.
-/

namespace Precis.Model

/-- The input ceiling of a model about which nothing else is said. -/
def defaultCeiling : UInt32 := 1048576

structure Descriptor where
  id : Id
  providerName : String
  ceiling : UInt32
deriving DecidableEq, Repr

/-- The last description of a model. -/
def describe? (descriptors : List Descriptor) (id : Id) : Option Descriptor :=
  descriptors.reverse.find? fun descriptor => descriptor.id = id

/-- What is wrong with an order of preference at one of its places. -/
inductive OrderFault where
  | undescribed (id : Id)
  | repeated (id : Id)
deriving DecidableEq, Repr

def OrderFault.message : OrderFault → String
  | .undescribed id => id.name ++ " has no provider mapping"
  | .repeated id => id.name ++ " listed more than once"

/-- The fault at the first place that has one. `earlier` holds the models before. -/
def firstFault?
    (descriptors : List Descriptor) :
    (earlier : List Id) → (order : List Id) → Option OrderFault
  | _, [] => none
  | earlier, id :: rest =>
      if (describe? descriptors id).isNone then some (.undescribed id)
      else if id ∈ earlier then some (.repeated id)
      else firstFault? descriptors (id :: earlier) rest

theorem described_of_firstFault?_eq_none
    {descriptors : List Descriptor}
    {earlier order : List Id}
    (faultless : firstFault? descriptors earlier order = none) :
    ∀ id ∈ order, (describe? descriptors id).isSome := by
  induction order generalizing earlier with
  | nil => simp
  | cons head tail inductionHypothesis =>
      unfold firstFault? at faultless
      split at faultless
      case isTrue => cases faultless
      case isFalse described =>
        split at faultless
        case isTrue => cases faultless
        case isFalse =>
          intro id member
          rcases List.mem_cons.mp member with rfl | later
          · simpa [Option.isSome_iff_ne_none] using described
          · exact inductionHypothesis faultless id later

theorem nodup_of_firstFault?_eq_none
    {descriptors : List Descriptor}
    {earlier order : List Id}
    (faultless : firstFault? descriptors earlier order = none) :
    order.Nodup ∧ ∀ id ∈ order, id ∉ earlier := by
  induction order generalizing earlier with
  | nil => simp
  | cons head tail inductionHypothesis =>
      unfold firstFault? at faultless
      split at faultless
      case isTrue => cases faultless
      case isFalse =>
        split at faultless
        case isTrue => cases faultless
        case isFalse fresh =>
          obtain ⟨distinct, apart⟩ := inductionHypothesis faultless
          refine ⟨List.nodup_cons.mpr ⟨?_, distinct⟩, ?_⟩
          · intro member
            exact apart head member (by simp)
          · intro id member
            rcases List.mem_cons.mp member with rfl | later
            · exact fresh
            · exact fun earlierMember =>
                apart id later (List.mem_cons_of_mem _ earlierMember)

structure Catalog where
  families : List Family
  descriptors : List Descriptor
  preference : List Id
  described : ∀ id ∈ preference, (describe? descriptors id).isSome
  distinct : preference.Nodup

namespace Catalog

/-- The catalog of the given lists, unless its order has a fault. -/
def ofLists
    (families : List Family)
    (descriptors : List Descriptor)
    (preference : List Id) : Except Settings.Fault Catalog :=
  match faultless : firstFault? descriptors [] preference with
  | some fault => .error (.invalid "model priority" fault.message)
  | none =>
      .ok
        { families
          descriptors
          preference
          described := described_of_firstFault?_eq_none faultless
          distinct := (nodup_of_firstFault?_eq_none faultless).1 }

def descriptor? (catalog : Catalog) (id : Id) : Option Descriptor :=
  describe? catalog.descriptors id

def providerName? (catalog : Catalog) (id : Id) : Option String :=
  (catalog.descriptor? id).map Descriptor.providerName

def supports (catalog : Catalog) (family : Family) : Bool :=
  catalog.families.contains family

def geminiDescriptors : List Descriptor :=
  [⟨.gemini25Pro, "gemini-2.5-pro", defaultCeiling⟩,
    ⟨.gemini25Flash, "gemini-2.5-flash", defaultCeiling⟩,
    ⟨.gemini25FlashLite, "gemini-2.5-flash-lite", defaultCeiling⟩,
    ⟨.gemini3Flash, "gemini-3-flash-preview", defaultCeiling⟩]

/-- The default catalog: cheap models first, and the dearest only on request. -/
def gemini : Catalog :=
  { families := [.gemini]
    descriptors := geminiDescriptors
    preference := [.gemini25FlashLite, .gemini25Flash, .gemini3Flash]
    described := by decide
    distinct := by decide }

end Catalog

end Precis.Model

import Mathlib.Data.List.Nodup
import Precis.Model.Catalog

/-!
Contract: which orders of preference are accepted, and what is said of the others.

Owns the fault of an order at each of its places. The search for a fault keeps
the models that it has passed; `firstFault?_judged` reads it over the whole
order, so that the place it ends at is the first of all places with a fault.

Does not own the walk over the models of an order.
-/

namespace Precis.Model

/-! ### Descriptions -/

section Descriptions

variable {descriptors : List Descriptor} {id : Id}

/-- The last description of a model counts. -/
theorem describe?_eq_some_iff {descriptor : Descriptor} :
    describe? descriptors id = some descriptor ↔
      descriptor.id = id ∧
        ∃ before after, descriptors = before ++ descriptor :: after ∧
          ∀ other ∈ after, other.id ≠ id := by
  unfold describe?
  rw [List.find?_eq_some_iff_append]
  simp only [decide_eq_true_eq, Bool.not_eq_true', decide_eq_false_iff_not]
  refine and_congr_right fun _ => ?_
  constructor
  · rintro ⟨after, before, split, last⟩
    refine ⟨before.reverse, after.reverse, ?_, fun other member => ?_⟩
    · rw [← descriptors.reverse_reverse, split]
      simp
    · exact last other (List.mem_reverse.mp member)
  · rintro ⟨before, after, rfl, last⟩
    refine ⟨after.reverse, before.reverse, by simp, fun other member => ?_⟩
    exact last other (List.mem_reverse.mp member)

theorem isSome_describe?_iff :
    (describe? descriptors id).isSome ↔ ∃ descriptor ∈ descriptors, descriptor.id = id := by
  unfold describe?
  rw [List.find?_isSome]
  simp only [List.mem_reverse, decide_eq_true_eq]

end Descriptions

/-! ### Faults -/

/-- The fault of an order at a place: the model there is not described, or else
it stands at an earlier place too. -/
inductive FaultAt
    (descriptors : List Descriptor)
    (order : List Id)
    (index : Nat) : OrderFault → Prop where
  | undescribed
      {id : Id}
      (place : order[index]? = some id)
      (undescribed : ¬ ∃ descriptor ∈ descriptors, descriptor.id = id) :
      FaultAt descriptors order index (.undescribed id)
  | repeated
      {id : Id}
      (place : order[index]? = some id)
      (described : ∃ descriptor ∈ descriptors, descriptor.id = id)
      (repeated : id ∈ order.take index) :
      FaultAt descriptors order index (.repeated id)

/-- The first place of an order that has a fault. -/
structure FirstFaultAt
    (descriptors : List Descriptor)
    (order : List Id)
    (index : Nat)
    (fault : OrderFault) : Prop where
  found : FaultAt descriptors order index fault
  first : ∀ before < index, ∀ other, ¬ FaultAt descriptors order before other

section Faults

variable {descriptors : List Descriptor} {order : List Id} {index : Nat}
  {fault other : OrderFault}

theorem FaultAt.unique
    (found : FaultAt descriptors order index fault)
    (again : FaultAt descriptors order index other) :
    fault = other := by
  cases found with
  | undescribed place undescribed =>
      cases again with
      | undescribed samePlace _ =>
          rw [Option.some.inj (place.symm.trans samePlace)]
      | repeated samePlace described _ =>
          rw [Option.some.inj (place.symm.trans samePlace)] at undescribed
          exact absurd described undescribed
  | repeated place described repeated =>
      cases again with
      | undescribed samePlace undescribed =>
          rw [Option.some.inj (place.symm.trans samePlace)] at described
          exact absurd described undescribed
      | repeated samePlace _ _ =>
          rw [Option.some.inj (place.symm.trans samePlace)]

theorem FirstFaultAt.unique
    {index' : Nat}
    (found : FirstFaultAt descriptors order index fault)
    (again : FirstFaultAt descriptors order index' other) :
    fault = other := by
  rcases Nat.lt_trichotomy index index' with earlier | rfl | later
  · exact absurd found.found (again.first index earlier fault)
  · exact found.found.unique again.found
  · exact absurd again.found (found.first index' later other)

/-- An order has no fault exactly if all its models are described and none
occurs twice. -/
theorem faultless_iff :
    (∀ index fault, ¬ FaultAt descriptors order index fault) ↔
      (∀ id ∈ order, ∃ descriptor ∈ descriptors, descriptor.id = id) ∧ order.Nodup := by
  constructor
  · intro faultless
    have described : ∀ id ∈ order, ∃ descriptor ∈ descriptors, descriptor.id = id := by
      intro id member
      obtain ⟨index, place⟩ := List.mem_iff_getElem?.mp member
      by_contra undescribed
      exact faultless index _ (.undescribed place undescribed)
    refine ⟨described, List.nodup_iff_getElem?_ne_getElem?.mpr fun earlier later lt bound => ?_⟩
    intro same
    have place : order[later]? = some order[later] := List.getElem?_eq_getElem bound
    have repeated : order[later] ∈ order.take later := by
      refine List.mem_iff_getElem?.mpr ⟨earlier, ?_⟩
      rw [List.getElem?_take_of_lt lt, same, place]
    exact faultless later _ (.repeated place (described _ (List.getElem_mem bound)) repeated)
  · rintro ⟨described, distinct⟩ index fault found
    cases found with
    | undescribed place undescribed =>
        exact undescribed (described _ (List.mem_of_getElem? place))
    | repeated place _ repeated =>
        obtain ⟨earlier, earlierPlace⟩ := List.mem_iff_getElem?.mp repeated
        rw [List.getElem?_take, Option.ite_none_right_eq_some] at earlierPlace
        obtain ⟨lt, samePlace⟩ := earlierPlace
        obtain ⟨bound, -⟩ := List.getElem?_eq_some_iff.mp place
        exact List.nodup_iff_getElem?_ne_getElem?.mp distinct earlier index lt bound
          (samePlace.trans place.symm)

end Faults

/-! ### The search -/

/-- What a search for a fault may find in an order. -/
inductive Judged (descriptors : List Descriptor) (order : List Id) : Option OrderFault → Prop where
  | faultless (faultless : ∀ index fault, ¬ FaultAt descriptors order index fault) :
      Judged descriptors order none
  | faulty
      {index : Nat}
      {fault : OrderFault}
      (first : FirstFaultAt descriptors order index fault) :
      Judged descriptors order (some fault)

theorem firstFault?_judged
    {descriptors : List Descriptor}
    {order passed rest : List Id}
    (split : order = passed ++ rest)
    (faultless : ∀ index < passed.length, ∀ fault, ¬ FaultAt descriptors order index fault) :
    Judged descriptors order (firstFault? descriptors passed.reverse rest) := by
  -- The rest gets shorter, and what is passed has no fault.
  induction rest generalizing passed with
  | nil =>
      refine .faultless fun index fault found => ?_
      have bound : index < order.length := by
        cases found with
        | undescribed place _ => exact (List.getElem?_eq_some_iff.mp place).1
        | repeated place _ _ => exact (List.getElem?_eq_some_iff.mp place).1
      rw [split, List.append_nil] at bound
      exact faultless index bound fault found
  | cons id rest inductionHypothesis =>
      have place : order[passed.length]? = some id := by simp [split]
      have before : order.take passed.length = passed := by simp [split]
      unfold firstFault?
      by_cases described : (describe? descriptors id).isSome
      · rw [if_neg (by simpa [Option.isSome_iff_ne_none] using described)]
        by_cases repeated : id ∈ passed
        · rw [if_pos (List.mem_reverse.mpr repeated)]
          refine .faulty ⟨.repeated place (isSome_describe?_iff.mp described) ?_, faultless⟩
          rw [before]
          exact repeated
        · rw [if_neg (mt List.mem_reverse.mp repeated)]
          have passedAlso : id :: passed.reverse = (passed ++ [id]).reverse := by simp
          rw [passedAlso]
          refine inductionHypothesis (by simp [split]) fun index bound fault found => ?_
          rw [List.length_append, List.length_singleton, Nat.lt_succ_iff_lt_or_eq] at bound
          rcases bound with earlier | rfl
          · exact faultless index earlier fault found
          · cases found with
            | undescribed samePlace undescribed =>
                obtain rfl := Option.some.inj (place.symm.trans samePlace)
                exact undescribed (isSome_describe?_iff.mp described)
            | repeated samePlace _ again =>
                obtain rfl := Option.some.inj (place.symm.trans samePlace)
                rw [before] at again
                exact repeated again
      · rw [if_pos (by simpa using described)]
        exact .faulty ⟨.undescribed place (mt isSome_describe?_iff.mpr described), faultless⟩

theorem judged_firstFault? (descriptors : List Descriptor) (order : List Id) :
    Judged descriptors order (firstFault? descriptors [] order) :=
  @firstFault?_judged descriptors order [] order rfl nofun

section Search

variable {descriptors : List Descriptor} {order : List Id}

theorem firstFault?_eq_some_iff {fault : OrderFault} :
    firstFault? descriptors [] order = some fault ↔
      ∃ index, FirstFaultAt descriptors order index fault := by
  have judged := judged_firstFault? descriptors order
  generalize firstFault? descriptors [] order = found at judged
  cases judged with
  | faultless faultless =>
      refine ⟨nofun, ?_⟩
      rintro ⟨index, first⟩
      exact absurd first.found (faultless index fault)
  | @faulty index found first =>
      rw [Option.some.injEq]
      constructor
      · rintro rfl
        exact ⟨index, first⟩
      · rintro ⟨_, again⟩
        exact first.unique again

theorem firstFault?_eq_none_iff :
    firstFault? descriptors [] order = none ↔
      (∀ id ∈ order, ∃ descriptor ∈ descriptors, descriptor.id = id) ∧ order.Nodup := by
  have judged := judged_firstFault? descriptors order
  rw [← faultless_iff]
  generalize firstFault? descriptors [] order = found at judged
  cases judged with
  | faultless faultless => exact ⟨fun _ => faultless, fun _ => rfl⟩
  | @faulty index fault first =>
      exact ⟨nofun, fun faultless => absurd first.found (faultless index fault)⟩

end Search

/-! ### Catalogs -/

namespace Catalog

variable {families : List Family} {descriptors : List Descriptor} {preference : List Id}

theorem ofLists_of_fault
    {fault : OrderFault}
    (found : firstFault? descriptors [] preference = some fault) :
    ofLists families descriptors preference =
      .error (.invalid "model priority" fault.message) := by
  unfold ofLists
  split
  case h_1 other again =>
    rw [found] at again
    rw [Option.some.inj again]
  case h_2 faultless =>
    rw [found] at faultless
    contradiction

theorem ofLists_of_faultless (faultless : firstFault? descriptors [] preference = none) :
    ofLists families descriptors preference =
      .ok
        { families
          descriptors
          preference
          described := described_of_firstFault?_eq_none faultless
          distinct := (nodup_of_firstFault?_eq_none faultless).1 } := by
  unfold ofLists
  split
  case h_1 fault found =>
    rw [faultless] at found
    contradiction
  case h_2 => rfl

end Catalog

end Precis.Model

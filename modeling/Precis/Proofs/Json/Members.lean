import Mathlib.Data.List.Perm.Basic
import Mathlib.Data.List.Nodup
import Precis.Proofs.Json.Record
import Precis.Proofs.Json.Writing

/-!
Contract: objects with distinct names, through text and back.

Owns that an object of distinct names which is written as text, its members in
any order, is read as the members that were written. A record that is read from
such members is therefore read from every text of the object, at once or by way
of generic JSON.

Does not own which members a record has, and objects that hold objects.
-/

namespace Precis.Json

/-! ### Members sorted by name -/

theorem perm_putMember
    {name : String}
    {members : List (String × Value)}
    (value : Value)
    (fresh : name ∉ members.map Prod.fst) :
    (putMember name value members).Perm ((name, value) :: members) := by
  induction members with
  | nil => exact .refl _
  | cons member rest inductionHypothesis =>
      obtain ⟨other, old⟩ := member
      rw [List.map_cons, List.mem_cons, not_or] at fresh
      rw [putMember, if_neg fresh.1]
      split
      case isTrue => exact .refl _
      case isFalse =>
        exact (List.Perm.cons _ (inductionHypothesis fresh.2)).trans (.swap _ _ _)

/-- Sorting puts the members in another order, where every name stands once. -/
theorem perm_sortMembers {members : List (String × Value)}
    (distinct : (members.map Prod.fst).Nodup) : (sortMembers members).Perm members := by
  induction members using List.reverseRecOn with
  | nil => exact .refl _
  | append_singleton front last inductionHypothesis =>
      rw [List.map_append, List.nodup_append] at distinct
      obtain ⟨frontDistinct, _, apart⟩ := distinct
      have sorted := inductionHypothesis frontDistinct
      have fresh : last.1 ∉ (sortMembers front).map Prod.fst := by
        intro inFront
        have inFront := (sorted.map Prod.fst).mem_iff.mp inFront
        exact apart last.1 inFront last.1 (by simp) rfl
      have put := perm_putMember last.2 fresh
      rw [sortMembers, List.foldl_append]
      exact put.trans ((sorted.cons last).trans (List.perm_append_singleton last front).symm)

theorem membersToDocuments_eq_map (members : List (String × Value)) :
    membersToDocuments members =
      members.map fun member => (some member.1, member.2.toDocument) := by
  induction members with
  | nil => rfl
  | cons member rest inductionHypothesis =>
      rw [membersToDocuments, inductionHypothesis]
      rfl

/-! ### The members that a text holds -/

/-- The members of an object that was written from the given ones, in some order. -/
def WrittenFrom (entries : List (String × Value)) (members : Members) : Prop :=
  members.Perm (membersToDocuments entries)

theorem WrittenFrom.exists_perm
    {entries : List (String × Value)}
    {members : Members}
    (written : WrittenFrom entries members) :
    ∃ others : List (String × Value),
      members = membersToDocuments others ∧ others.Perm entries := by
  rw [WrittenFrom, membersToDocuments_eq_map] at written
  obtain ⟨others, isMap, perm⟩ :=
    (congrFun (congrFun (List.eq_map_comp_perm _) members) entries).mpr written
  exact ⟨others, isMap.trans (membersToDocuments_eq_map others).symm, perm⟩

section Written

variable {entries : List (String × Value)} {members : Members}
  (distinct : (entries.map Prod.fst).Nodup)

theorem WrittenFrom.names (written : WrittenFrom entries members) :
    (members.map Prod.fst).Perm ((entries.map Prod.fst).map some) := by
  have names := written.map Prod.fst
  rw [membersToDocuments_eq_map, List.map_map] at names
  rwa [List.map_map]

theorem WrittenFrom.absent
    {name : String}
    (written : WrittenFrom entries members)
    (missing : name ∉ entries.map Prod.fst) :
    field? members name = none := by
  rw [field?_eq_none_iff, written.names.mem_iff, List.mem_map]
  rintro ⟨other, stands, same⟩
  exact missing (Option.some.inj same ▸ stands)

include distinct

theorem WrittenFrom.namedOnce (written : WrittenFrom entries members) (names : List String) :
    NamedOnce names members where
  named := by
    rw [written.names.mem_iff]
    simp
  once name _ := by
    rw [written.names.count_eq]
    apply List.nodup_iff_count_le_one.mp
    exact distinct.map fun _ _ => Option.some.inj

theorem WrittenFrom.holds
    {α : Type}
    {decode : Decoder α}
    {name : String}
    {value : Value}
    {read : α}
    (written : WrittenFrom entries members)
    (stands : (name, value) ∈ entries)
    (decoded : decode value.toDocument = .ok read) :
    Holds decode members name read := by
  have inside : (some name, value.toDocument) ∈ members := by
    rw [written.mem_iff, membersToDocuments_eq_map]
    exact List.mem_map_of_mem stands
  exact ⟨value.toDocument, (written.namedOnce distinct [name]).field?_eq List.mem_cons_self inside,
    decoded⟩

theorem WrittenFrom.holds_text
    {name text : String}
    (written : WrittenFrom entries members)
    (stands : (name, .string text) ∈ entries) :
    Holds decodeText members name text :=
  written.holds distinct stands rfl

end Written

/-! ### Objects that hold no objects -/

/-- A value that holds no other: its only numbers are naturals of 64 bits. -/
def Value.IsScalar : Value → Prop
  | .number value => ∃ natural, natural ≤ Number.significandLimit ∧ value = .integer natural
  | .array _ => False
  | .object _ => False
  | _ => True

@[simp] theorem isScalar_null : Value.null.IsScalar := trivial

@[simp] theorem isScalar_string (text : String) : (Value.string text).IsScalar := trivial

theorem Value.IsScalar.exactly {value : Value} (scalar : value.IsScalar) : value.Exact := by
  cases value with
  | null => exact trivial
  | bool flag => exact trivial
  | number number => exact scalar
  | string text => exact trivial
  | array items => exact scalar.elim
  | object members => exact scalar.elim

theorem Value.IsScalar.toValueWithin?_eq {value : Value} (scalar : value.IsScalar) (depth : Nat) :
    value.toDocument.toValueWithin? depth = some value := by
  cases value with
  | null => rw [Value.toDocument, Document.toValueWithin?]
  | bool flag => rw [Value.toDocument, Document.toValueWithin?]
  | number number =>
      obtain ⟨natural, _, rfl⟩ := scalar
      rw [Value.toDocument, Document.toValueWithin?]
      rfl
  | string text =>
      rw [Value.toDocument, Document.toValueWithin?]
      rfl
  | array items => exact scalar.elim
  | object members => exact scalar.elim

theorem membersToValues?_membersToDocuments
    {entries : List (String × Value)}
    (depth : Nat)
    (scalar : ∀ entry ∈ entries, entry.2.IsScalar) :
    membersToValues? depth (membersToDocuments entries) = some entries := by
  induction entries with
  | nil => rw [membersToDocuments, membersToValues?]
  | cons entry rest inductionHypothesis =>
      have first := (scalar entry List.mem_cons_self).toValueWithin?_eq depth
      have others := inductionHypothesis fun other inRest =>
        scalar other (List.mem_cons_of_mem _ inRest)
      simp only [membersToDocuments, membersToValues?, first, others]

/-- An object that is written from members of distinct names, none of which is an object. -/
structure Flat (value : Value) (entries : List (String × Value)) : Prop where
  value_eq : value = .ofMembers entries
  distinct : (entries.map Prod.fst).Nodup
  scalar : ∀ entry ∈ entries, entry.2.IsScalar

/-- A text of an object: its members in any order, with any blanks and escapes. -/
def Transcribes (value : Value) (text : String) : Prop :=
  ∃ entries members, value = .object entries ∧ WrittenFrom entries members ∧
    SpellsPadded (.object members) text.toList

namespace Flat

variable {value : Value} {entries : List (String × Value)} (flat : Flat value entries)

include flat

theorem transcribes_text : Transcribes value value.text := by
  refine ⟨sortMembers entries, membersToDocuments (sortMembers entries), flat.value_eq, .refl _, ?_⟩
  have exactly : value.Exact := by
    rw [flat.value_eq]
    apply membersExact_iff.mpr
    intro entry inside
    exact (flat.scalar entry ((perm_sortMembers flat.distinct).mem_iff.mp inside)).exactly
  have spells := Value.spellsPadded_text exactly
  rw [flat.value_eq] at spells ⊢
  exact spells

theorem writtenFrom {members : Members}
    (written : WrittenFrom (sortMembers entries) members) : WrittenFrom entries members := by
  have sorted := perm_sortMembers flat.distinct
  unfold WrittenFrom at written ⊢
  rw [membersToDocuments_eq_map] at written ⊢
  exact written.trans (sorted.map _)

theorem exists_written {text : String} (transcribes : Transcribes value text) :
    ∃ members, WrittenFrom entries members ∧ SpellsPadded (.object members) text.toList := by
  obtain ⟨sorted, members, isObject, written, spells⟩ := transcribes
  obtain rfl : sortMembers entries = sorted := Value.object.inj (flat.value_eq.symm.trans isObject)
  exact ⟨members, flat.writtenFrom written, spells⟩

/-- The object has the members that it was written from, and no others. -/
theorem member?_eq_some_iff {name : String} {found : Value} :
    value.member? name = some found ↔ (name, found) ∈ entries := by
  have sorted := perm_sortMembers flat.distinct
  have distinct : ((sortMembers entries).map Prod.fst).Nodup :=
    (sorted.map Prod.fst).nodup_iff.mpr flat.distinct
  rw [flat.value_eq, ← sorted.mem_iff, Value.ofMembers, Value.member?, Option.map_eq_some_iff]
  constructor
  · rintro ⟨member, isFirst, rfl⟩
    have named : member.1 = name := by simpa using List.find?_some isFirst
    rw [← named]
    exact List.mem_of_find?_eq_some isFirst
  · intro inside
    obtain ⟨member, isFirst⟩ : ∃ member,
        ((sortMembers entries).find? fun member => member.1 = name) = some member :=
      Option.isSome_iff_exists.mp (List.find?_isSome.mpr ⟨_, inside, by simp⟩)
    have named : member.1 = name := by simpa using List.find?_some isFirst
    have same := List.inj_on_of_nodup_map distinct (List.mem_of_find?_eq_some isFirst) inside named
    exact ⟨member, isFirst, congrArg Prod.snd same⟩

/-- Generic JSON reads the members as they were written, and keeps them sorted. -/
theorem exists_toValue? {members : Members} (written : WrittenFrom entries members) :
    ∃ generic kept, Document.toValue? (.object members) = some generic ∧
      generic.toDocument = .object kept ∧ WrittenFrom entries kept := by
  obtain ⟨others, rfl, perm⟩ := written.exists_perm
  have othersDistinct : (others.map Prod.fst).Nodup :=
    (perm.map Prod.fst).nodup_iff.mpr flat.distinct
  have scalar : ∀ entry ∈ others, entry.2.IsScalar := fun entry inside =>
    flat.scalar entry (perm.mem_iff.mp inside)
  refine ⟨.ofMembers others, membersToDocuments (sortMembers others), ?_, rfl, ?_⟩
  · have read := membersToValues?_membersToDocuments 126 scalar
    simp only [Document.toValue?, nestingLimit, Document.toValueWithin?, read, Option.map_some]
  · rw [WrittenFrom, membersToDocuments_eq_map, membersToDocuments_eq_map]
    exact ((perm_sortMembers othersDistinct).trans perm).map _

end Flat

end Precis.Json

import Mathlib.Data.List.Basic
import Precis.Proofs.Json.Record
import Precis.Proofs.Result

/-!
Contract: which documents hold a record of one field, and which hold a name.

Owns that a record of one required field is read from exactly the documents in
which the field stands once, and that a name without payload is read from
exactly two forms of document.

Does not own records of several fields.
-/

namespace Precis.Json

/-! ### Names -/

/-- The documents of a name: its text, or an object that has it as its only
member, with null. -/
inductive Names (name : String) : Document → Prop
  | text : Names name (.string (some name))
  | member : Names name (.object [(some name, .null)])

theorem decodeName_eq_ok_iff
    {α : Type}
    {select : String → Except DecodeError α}
    {document : Document}
    {value : α} :
    decodeName select document = .ok value ↔
      ∃ name, Names name document ∧ select name = .ok value := by
  constructor
  · intro decoded
    unfold decodeName at decoded
    split at decoded
    case h_1 name => exact ⟨name, .text, decoded⟩
    case h_3 name payload =>
      split at decoded
      case h_1 => cases decoded
      case h_2 found selected =>
        cases payload with
        | null => exact ⟨name, .member, selected.trans (congrArg _ (Except.ok.inj decoded))⟩
        | _ => cases decoded
    all_goals cases decoded
  · rintro ⟨name, names, selected⟩
    cases names with
    | text => exact selected
    | member => simp only [decodeName, selected, decodeUnit]; rfl

/-! ### Members of an object that has one field -/

variable {draft : Type} {field : FieldRule draft}

/-- A member of another name. -/
def HasOtherName (name : String) (member : Option String × Document) : Prop :=
  ∃ other, member.1 = some other ∧ other ≠ name

theorem readObject_cons_other
    {member : Option String × Document}
    (seen : List String)
    (rest : List (Option String × Document))
    (state : draft)
    (other : HasOtherName field.name member) :
    readObject [field] seen (member :: rest) state = readObject [field] seen rest state := by
  obtain ⟨name, named, different⟩ := other
  obtain ⟨label, document⟩ := member
  obtain rfl : label = some name := named
  have unknown : [field].find? (fun field => field.name = name) = none := by
    simpa using different.symm
  rw [readObject, unknown]

/-- Members of other names are passed over. -/
theorem readObject_append_others
    {others : List (Option String × Document)}
    (seen : List String)
    (rest : List (Option String × Document))
    (state : draft)
    (haveOtherNames : ∀ member ∈ others, HasOtherName field.name member) :
    readObject [field] seen (others ++ rest) state = readObject [field] seen rest state := by
  induction others with
  | nil => rfl
  | cons member others inductionHypothesis =>
      rw [List.forall_mem_cons] at haveOtherNames
      rw [List.cons_append, readObject_cons_other _ _ _ haveOtherNames.1]
      exact inductionHypothesis haveOtherNames.2

theorem readObject_field_again
    {members : List (Option String × Document)}
    {state final : draft}
    (read : readObject [field] [field.name] members state = .ok final) :
    (∀ member ∈ members, HasOtherName field.name member) ∧ final = state := by
  induction members with
  | nil => exact ⟨List.forall_mem_nil _, (Except.ok.inj read).symm⟩
  | cons member rest inductionHypothesis =>
      obtain ⟨label, document⟩ := member
      cases label with
      | none => cases read
      | some name =>
          by_cases same : name = field.name
          · subst same
            simp [readObject] at read
          · have other : HasOtherName field.name (some name, document) := ⟨name, rfl, same⟩
            rw [readObject_cons_other _ _ _ other] at read
            obtain ⟨others, unchanged⟩ := inductionHypothesis read
            exact ⟨List.forall_mem_cons.mpr ⟨other, others⟩, unchanged⟩

/-- An object is read if the field stands in it once, or not at all. -/
theorem readObject_field
    {members : List (Option String × Document)}
    {state final : draft}
    (read : readObject [field] [] members state = .ok final) :
    final = state ∨ ∃ before document after,
      members = before ++ (some field.name, document) :: after ∧
        (∀ member ∈ before ++ after, HasOtherName field.name member) ∧
        field.read document state = .ok final := by
  induction members with
  | nil => exact .inl (Except.ok.inj read).symm
  | cons member rest inductionHypothesis =>
      obtain ⟨label, document⟩ := member
      cases label with
      | none => cases read
      | some name =>
          by_cases same : name = field.name
          · subst same
            refine .inr ⟨[], document, rest, rfl, ?_⟩
            cases first : field.read document state with
            | error failure => simp [readObject, first] at read
            | ok next =>
                have again : readObject [field] [field.name] rest next = .ok final := by
                  simpa [readObject, first] using read
                obtain ⟨others, rfl⟩ := readObject_field_again again
                exact ⟨others, rfl⟩
          · have other : HasOtherName field.name (some name, document) := ⟨name, rfl, same⟩
            rw [readObject_cons_other _ _ _ other] at read
            rcases inductionHypothesis read with
              unchanged | ⟨before, found, after, rfl, others, first⟩
            · exact .inl unchanged
            · exact .inr ⟨(some name, document) :: before, found, after, rfl,
                List.forall_mem_cons.mpr ⟨other, others⟩, first⟩

/-! ### Records of one field -/

/-- The documents in which a field stands once: objects whose other members have
other names, and the array of the field. -/
inductive StandsOnce (name : String) (document : Document) : Document → Prop
  | object
      {before after : List (Option String × Document)}
      (others : ∀ member ∈ before ++ after, HasOtherName name member) :
      StandsOnce name document (.object (before ++ (some name, document) :: after))
  | array : StandsOnce name document (.array [document])

theorem readObject_field_once
    {before after : List (Option String × Document)}
    {document : Document}
    {state final : draft}
    (others : ∀ member ∈ before ++ after, HasOtherName field.name member)
    (first : field.read document state = .ok final) :
    readObject [field] [] (before ++ (some field.name, document) :: after) state = .ok final := by
  rw [List.forall_mem_append] at others
  have known : [field].find? (fun rule => rule.name = field.name) = some field := by simp
  have rest := readObject_append_others [field.name] [] final others.2
  rw [List.append_nil] at rest
  rw [readObject_append_others _ _ _ others.1, readObject, known]
  simp only [List.contains_nil, Bool.false_eq_true, if_false, first]
  exact rest

theorem exists_item_of_readArray
    {record : String}
    {total length index : Nat}
    {items : List Document}
    {state final : draft}
    (mandatory : field.mayEndBefore = false)
    (read : readArray record total length index [field] items state = .ok final) :
    ∃ document, items = [document] ∧ field.read document state = .ok final := by
  match items with
  | [] => simp [readArray, mandatory] at read
  | document :: rest =>
      rw [readArray] at read
      cases first : field.read document state with
      | error failure => rw [first] at read; cases read
      | ok next =>
          rw [first] at read
          match rest with
          | [] => exact ⟨document, rfl, first.trans read⟩
          | second :: others => cases read

/-- A record of one required field is read from the documents in which it stands once. -/
theorem decodeRecord_required_eq_ok_iff
    {α β : Type}
    {decode : Decoder α}
    {make : α → β}
    {name : String}
    {whole : Document}
    {result : β}
    (record : String) :
    decodeRecord record [.storing name decode (fun value _ => some value) false] none
        (fun read => (required name read).map make) whole = .ok result ↔
      ∃ document value, StandsOnce name document whole ∧ decode document = .ok value ∧
        make value = result := by
  let rule : FieldRule (Option α) := .storing name decode (fun value _ => some value) false
  constructor
  · intro decoded
    cases whole with
    | object members =>
        obtain ⟨draft, read, finished⟩ := bind_eq_ok_iff.mp decoded
        rcases readObject_field read with rfl | ⟨before, document, after, rfl, others, first⟩
        · cases finished
        · obtain ⟨value, isValue, rfl⟩ := FieldRule.storing_read_eq_ok_iff.mp first
          exact ⟨document, value, .object others, isValue, Except.ok.inj finished⟩
    | array items =>
        obtain ⟨draft, read, finished⟩ := bind_eq_ok_iff.mp decoded
        obtain ⟨document, rfl, first⟩ := exists_item_of_readArray rfl read
        obtain ⟨value, isValue, rfl⟩ := FieldRule.storing_read_eq_ok_iff.mp first
        exact ⟨document, value, .array, isValue, Except.ok.inj finished⟩
    | _ => cases decoded
  · rintro ⟨document, value, stands, decoded, rfl⟩
    have first : rule.read document none = .ok (some value) :=
      FieldRule.storing_read_eq_ok_iff.mpr ⟨value, decoded, rfl⟩
    cases stands with
    | object others =>
        exact bind_eq_ok_iff.mpr ⟨some value, readObject_field_once others first, rfl⟩
    | array =>
        have read : readArray record 1 1 0 [rule] [document] none = .ok (some value) := by
          rw [readArray, first]
          rfl
        exact bind_eq_ok_iff.mpr ⟨some value, read, rfl⟩

end Precis.Json

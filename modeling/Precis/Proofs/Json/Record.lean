import Mathlib.Data.List.Nodup
import Precis.Json.Decoder

/-!
Contract: records from objects, whatever the order of the members.

Owns what a record reads from an object in which each of its fields stands at
most once: nothing depends on the order of the members, or on members that the
record does not know. A part of the draft that belongs to one field is, in the
end, what that field has stored there, or what it was at the start.

Does not own records that are written as arrays.
-/

namespace Precis.Json

/-- The members of an object as a reader finds them. -/
abbrev Members := List (Option String × Document)

/-- The document under a name. -/
def field? (members : Members) (name : String) : Option Document :=
  (members.find? fun member => member.1 = some name).map Prod.snd

theorem field?_cons_self (name : String) (document : Document) (rest : Members) :
    field? ((some name, document) :: rest) name = some document := by
  simp [field?]

theorem field?_cons_of_ne
    {name : String}
    {member : Option String × Document}
    (rest : Members)
    (different : member.1 ≠ some name) :
    field? (member :: rest) name = field? rest name := by
  simp [field?, different]

theorem field?_eq_none_iff {members : Members} {name : String} :
    field? members name = none ↔ some name ∉ members.map Prod.fst := by
  unfold field?
  rw [Option.map_eq_none_iff, List.find?_eq_none, List.mem_map]
  constructor
  · rintro noneNamed ⟨member, inside, named⟩
    exact noneNamed member inside (decide_eq_true named)
  · intro absent member inside named
    exact absent ⟨member, inside, of_decide_eq_true named⟩

/-- Every member has a name, and none of the given names stands twice. -/
structure NamedOnce (names : List String) (members : Members) : Prop where
  named : none ∉ members.map Prod.fst
  once : ∀ name ∈ names, (members.map Prod.fst).count (some name) ≤ 1

theorem NamedOnce.tail
    {names : List String}
    {member : Option String × Document}
    {rest : Members}
    (namedOnce : NamedOnce names (member :: rest)) :
    NamedOnce names rest where
  named inRest := namedOnce.named (List.mem_cons_of_mem _ inRest)
  once name known := by
    refine Nat.le_trans ?_ (namedOnce.once name known)
    rw [List.map_cons]
    exact List.count_le_count_cons

theorem NamedOnce.exists_name
    {names : List String}
    {member : Option String × Document}
    {members : Members}
    (namedOnce : NamedOnce names members)
    (inside : member ∈ members) :
    ∃ name, member.1 = some name := by
  apply Option.ne_none_iff_exists'.mp
  intro unnamed
  exact namedOnce.named (unnamed ▸ List.mem_map_of_mem inside)

theorem NamedOnce.not_mem_tail
    {names : List String}
    {name : String}
    {document : Document}
    {rest : Members}
    (namedOnce : NamedOnce names ((some name, document) :: rest))
    (known : name ∈ names) :
    some name ∉ rest.map Prod.fst := by
  have once := namedOnce.once name known
  rw [List.map_cons, List.count_cons_self] at once
  exact List.count_eq_zero.mp (by omega)

theorem NamedOnce.field?_eq
    {names : List String}
    {name : String}
    {document : Document}
    {members : Members}
    (namedOnce : NamedOnce names members)
    (known : name ∈ names)
    (stands : (some name, document) ∈ members) :
    field? members name = some document := by
  induction members with
  | nil => cases stands
  | cons member rest inductionHypothesis =>
      rcases List.mem_cons.mp stands with rfl | later
      · exact field?_cons_self name document rest
      · have different : member.1 ≠ some name := by
          intro same
          obtain ⟨label, other⟩ := member
          obtain rfl : label = some name := same
          exact namedOnce.not_mem_tail known (List.mem_map_of_mem later)
        rw [field?_cons_of_ne rest different]
        exact inductionHypothesis namedOnce.tail later

variable {draft β : Type}

def FieldRule.names (fields : List (FieldRule draft)) : List String :=
  fields.map FieldRule.name

/-- A part of the draft that no field of another name changes. -/
def BelongsTo (fields : List (FieldRule draft)) (name : String) (part : draft → β) : Prop :=
  ∀ field ∈ fields, field.name ≠ name → ∀ document state next,
    field.read document state = .ok next → part next = part state

theorem FieldRule.storing_read_eq_ok_iff
    {α : Type}
    {name : String}
    {decode : Decoder α}
    {store : α → draft → draft}
    {mayEndBefore : Bool}
    {document : Document}
    {state next : draft} :
    (FieldRule.storing name decode store mayEndBefore).read document state = .ok next ↔
      ∃ value, decode document = .ok value ∧ next = store value state := by
  show Except.map _ (decode document) = .ok next ↔ _
  cases decode document with
  | error failure => simp [Except.map]
  | ok value => simp [Except.map, eq_comm]

/-! ### Reading the members one after the other -/

/-- Reading goes through, and here is what it has made of each part of the draft:
`startsFrom` where no member has the part's name, and `storedBy` where one has. -/
structure Reads
    (fields : List (FieldRule draft))
    (members : Members)
    (state final : draft) : Prop where
  startsFrom : ∀ {β : Type} (name : String) (part : draft → β), BelongsTo fields name part →
    field? members name = none → part final = part state
  storedBy : ∀ {β : Type} (name : String) (part : draft → β) (value : β) (document : Document),
    BelongsTo fields name part → field? members name = some document →
      name ∈ FieldRule.names fields →
      (∀ field ∈ fields, field.name = name → ∀ before after,
        field.read document before = .ok after → part after = value) →
      part final = value

theorem Reads.nil (fields : List (FieldRule draft)) (state : draft) :
    Reads fields [] state state where
  startsFrom _ _ _ _ := rfl
  storedBy _ _ _ _ _ found := by cases found

theorem Reads.skip
    {fields : List (FieldRule draft)}
    {name : String}
    {document : Document}
    {rest : Members}
    {state final : draft}
    (unknown : name ∉ FieldRule.names fields)
    (reads : Reads fields rest state final) :
    Reads fields ((some name, document) :: rest) state final where
  startsFrom other part belongs absent := by
    apply reads.startsFrom other part belongs
    rw [field?_eq_none_iff, List.map_cons, List.mem_cons, not_or] at absent
    exact field?_eq_none_iff.mpr absent.2
  storedBy other part value found belongs stands known stores := by
    refine reads.storedBy other part value found belongs ?_ known stores
    have different : some name ≠ some other := by
      intro same
      obtain rfl := Option.some.inj same
      exact unknown known
    rwa [field?_cons_of_ne rest different] at stands

theorem Reads.step
    {fields : List (FieldRule draft)}
    {field : FieldRule draft}
    {document : Document}
    {rest : Members}
    {state next final : draft}
    (member : field ∈ fields)
    (read : field.read document state = .ok next)
    (onlyHere : some field.name ∉ rest.map Prod.fst)
    (reads : Reads fields rest next final) :
    Reads fields ((some field.name, document) :: rest) state final where
  startsFrom other part belongs absent := by
    rw [field?_eq_none_iff, List.map_cons, List.mem_cons, not_or] at absent
    have different : field.name ≠ other := fun same => absent.1 (congrArg some same.symm)
    rw [reads.startsFrom other part belongs (field?_eq_none_iff.mpr absent.2)]
    exact belongs field member different document state next read
  storedBy other part value found belongs stands known stores := by
    by_cases same : field.name = other
    · subst same
      rw [field?_cons_self] at stands
      obtain rfl := Option.some.inj stands
      rw [reads.startsFrom _ part belongs (field?_eq_none_iff.mpr onlyHere)]
      exact stores field member rfl state next read
    · have different : some field.name ≠ some other := fun equal => same (Option.some.inj equal)
      rw [field?_cons_of_ne rest different] at stands
      exact reads.storedBy other part value found belongs stands known stores

/-- What stands under the names of fields can be read, whatever has been read before. -/
def Readable (fields : List (FieldRule draft)) (members : Members) : Prop :=
  ∀ field ∈ fields, ∀ document, field? members field.name = some document →
    ∀ state, ∃ next, field.read document state = .ok next

theorem Readable.tail
    {fields : List (FieldRule draft)}
    {member : Option String × Document}
    {rest : Members}
    (namedOnce : NamedOnce (FieldRule.names fields) (member :: rest))
    (readable : Readable fields (member :: rest)) :
    Readable fields rest := by
  intro field known document stands
  apply readable field known document
  obtain ⟨label, other⟩ := member
  by_cases same : label = some field.name
  · subst same
    have absent := namedOnce.not_mem_tail (List.mem_map_of_mem known)
    rw [field?_eq_none_iff.mpr absent] at stands
    cases stands
  · rwa [field?_cons_of_ne rest same]

theorem exists_readObject
    {fields : List (FieldRule draft)}
    {members : Members}
    (seen : List String)
    (state : draft)
    (namedOnce : NamedOnce (FieldRule.names fields) members)
    (unseen : ∀ name ∈ seen, some name ∉ members.map Prod.fst)
    (readable : Readable fields members) :
    ∃ final, readObject fields seen members state = .ok final ∧
      Reads fields members state final := by
  induction members generalizing seen state with
  | nil => exact ⟨state, rfl, .nil fields state⟩
  | cons member rest inductionHypothesis =>
      have restReadable := readable.tail namedOnce
      obtain ⟨name, named⟩ := namedOnce.exists_name List.mem_cons_self
      obtain ⟨label, document⟩ := member
      obtain rfl : label = some name := named
      have restUnseen : ∀ other ∈ seen, some other ∉ rest.map Prod.fst := by
        intro other wasSeen inRest
        exact unseen other wasSeen (List.mem_cons_of_mem _ inRest)
      rw [readObject]
      cases found : fields.find? fun field => field.name = name with
      | none =>
          have unknown : name ∉ FieldRule.names fields := by
            simpa [FieldRule.names] using found
          obtain ⟨final, read, reads⟩ :=
            inductionHypothesis seen state namedOnce.tail restUnseen restReadable
          exact ⟨final, read, reads.skip unknown⟩
      | some field =>
          have member := List.mem_of_find?_eq_some found
          obtain rfl : field.name = name := by simpa using List.find?_some found
          have known : field.name ∈ FieldRule.names fields := List.mem_map_of_mem member
          have notSeen : seen.contains field.name = false := by
            rw [← Bool.not_eq_true, List.contains_iff_mem]
            exact fun wasSeen => unseen field.name wasSeen List.mem_cons_self
          have onlyHere := namedOnce.not_mem_tail known
          obtain ⟨next, nextRead⟩ := readable field member document (field?_cons_self ..) state
          have nowUnseen : ∀ other ∈ field.name :: seen, some other ∉ rest.map Prod.fst := by
            intro other wasSeen
            rcases List.mem_cons.mp wasSeen with rfl | before
            · exact onlyHere
            · exact restUnseen other before
          obtain ⟨final, read, reads⟩ :=
            inductionHypothesis (field.name :: seen) next namedOnce.tail nowUnseen restReadable
          refine ⟨final, ?_, reads.step member nextRead onlyHere⟩
          simp only [notSeen, Bool.false_eq_true, if_false, nextRead, read]

/-- A record is read from an object if what stands under its names can be read:
the draft is complete, and is finished. -/
theorem decodeRecord_of_readable
    {α : Type}
    {record : String}
    {fields : List (FieldRule draft)}
    {members : Members}
    {empty : draft}
    {finish : draft → Except DecodeError α}
    {result : Except DecodeError α}
    (namedOnce : NamedOnce (FieldRule.names fields) members)
    (readable : Readable fields members)
    (finished : ∀ final, Reads fields members empty final → finish final = result) :
    decodeRecord record fields empty finish (.object members) = result := by
  obtain ⟨final, read, reads⟩ := exists_readObject [] empty namedOnce (by simp) readable
  rw [decodeRecord, read]
  exact finished final reads

/-! ### Fields that store a value -/

variable {α : Type}

/-- The value that a member holds. -/
def Holds (decode : Decoder α) (members : Members) (name : String) (value : α) : Prop :=
  ∃ document, field? members name = some document ∧ decode document = .ok value

/-- The value that a member holds, or the default where there is no such member. -/
def Yields
    (decode : Decoder α)
    (members : Members)
    (name : String)
    (default value : α) : Prop :=
  Holds decode members name value ∨ field? members name = none ∧ value = default

theorem Holds.decode_eq
    {decode : Decoder α}
    {members : Members}
    {name : String}
    {value : α}
    (holds : Holds decode members name value)
    (document : Document)
    (stands : field? members name = some document) :
    decode document = .ok value := by
  obtain ⟨other, otherStands, decoded⟩ := holds
  obtain rfl := Option.some.inj (stands.symm.trans otherStands)
  exact decoded

theorem Yields.decode_eq
    {decode : Decoder α}
    {members : Members}
    {name : String}
    {default value : α}
    (yields : Yields decode members name default value)
    (document : Document)
    (stands : field? members name = some document) :
    decode document = .ok value := by
  rcases yields with holds | ⟨absent, _⟩
  · exact holds.decode_eq document stands
  · rw [absent] at stands
    cases stands

theorem readable_nil (members : Members) : Readable ([] : List (FieldRule draft)) members :=
  fun _ member => nomatch member

theorem readable_storing
    {decode : Decoder α}
    {members : Members}
    {name : String}
    {value : α}
    {store : α → draft → draft}
    {mayEndBefore : Bool}
    {fields : List (FieldRule draft)}
    (decodes : ∀ document, field? members name = some document → decode document = .ok value)
    (others : Readable fields members) :
    Readable (.storing name decode store mayEndBefore :: fields) members := by
  intro field member document stands state
  rcases List.mem_cons.mp member with rfl | later
  · exact ⟨store value state,
      FieldRule.storing_read_eq_ok_iff.mpr ⟨value, decodes document stands, rfl⟩⟩
  · exact others field later document stands state

@[simp] theorem belongsTo_nil (name : String) (part : draft → β) : BelongsTo [] name part :=
  fun _ member => nomatch member

@[simp] theorem belongsTo_storing_iff
    {decode : Decoder α}
    {label name : String}
    {part : draft → β}
    {store : α → draft → draft}
    {mayEndBefore : Bool}
    {fields : List (FieldRule draft)} :
    BelongsTo (.storing label decode store mayEndBefore :: fields) name part ↔
      (label ≠ name → ∀ document value, decode document = .ok value →
        ∀ state, part (store value state) = part state) ∧ BelongsTo fields name part := by
  constructor
  · intro belongs
    refine ⟨fun different document value decoded state => ?_,
      fun field member => belongs field (List.mem_cons_of_mem _ member)⟩
    exact belongs _ List.mem_cons_self different document state _
      (FieldRule.storing_read_eq_ok_iff.mpr ⟨value, decoded, rfl⟩)
  · rintro ⟨keeps, others⟩ field member different document state next read
    rcases List.mem_cons.mp member with rfl | later
    · obtain ⟨value, decoded, rfl⟩ := FieldRule.storing_read_eq_ok_iff.mp read
      exact keeps different document value decoded state
    · exact others field later different document state next read

section Stored

variable {decode : Decoder α} {members : Members} {name : String} {default value : α}
  {store : α → draft → draft} {mayEndBefore : Bool} {fields : List (FieldRule draft)}
  {state final : draft} {part : draft → β} {embed : α → β}

/-- A part of the draft is what its field has stored there. -/
theorem Reads.part_of_holds
    (reads : Reads fields members state final)
    (position : Nat)
    (rule : fields[position]? = some (.storing name decode store mayEndBefore))
    (distinct : (FieldRule.names fields).Nodup)
    (belongs : BelongsTo fields name part)
    (stores : ∀ value state, part (store value state) = embed value)
    (holds : Holds decode members name value) :
    part final = embed value := by
  obtain ⟨document, stands, decoded⟩ := holds
  have rule := List.mem_of_getElem? rule
  apply reads.storedBy name part (embed value) document belongs stands
  · exact List.mem_map_of_mem rule
  · intro field member named before after read
    obtain rfl := List.inj_on_of_nodup_map distinct member rule named
    obtain ⟨other, otherDecoded, rfl⟩ := FieldRule.storing_read_eq_ok_iff.mp read
    obtain rfl := Except.ok.inj (decoded.symm.trans otherDecoded)
    exact stores value before

theorem Reads.part_of_yields
    (reads : Reads fields members state final)
    (position : Nat)
    (rule : fields[position]? = some (.storing name decode store mayEndBefore))
    (distinct : (FieldRule.names fields).Nodup)
    (belongs : BelongsTo fields name part)
    (stores : ∀ value state, part (store value state) = embed value)
    (startsWith : part state = embed default)
    (yields : Yields decode members name default value) :
    part final = embed value := by
  rcases yields with holds | ⟨absent, rfl⟩
  · exact reads.part_of_holds position rule distinct belongs stores holds
  · rw [reads.startsFrom name part belongs absent, startsWith]

end Stored

/-- A record of one field, read into the value of that field. -/
theorem decodeRecord_single
    {result : Type}
    {decode : Decoder α}
    {members : Members}
    {name : String}
    {default value : α}
    {mayEndBefore : Bool}
    (record : String)
    (finish : α → Except DecodeError result)
    (namedOnce : NamedOnce [name] members)
    (yields : Yields decode members name default value) :
    decodeRecord record [.storing name decode (fun read _ => read) mayEndBefore] default finish
      (.object members) = finish value := by
  apply decodeRecord_of_readable
  · exact namedOnce
  · exact readable_storing yields.decode_eq (readable_nil members)
  · intro final reads
    have read : id final = id value :=
      reads.part_of_yields 0 rfl (List.nodup_singleton name) (by simp) (fun _ _ => rfl) rfl yields
    exact congrArg finish read

/-! ### Optional values and lists -/

theorem decodeOptional_of_ne_null
    {document : Document}
    (decode : Decoder α)
    (notNull : document ≠ .null) :
    decodeOptional decode document = (decode document).map some := by
  cases document with
  | null => exact absurd rfl notNull
  | bool value => rfl
  | number value => rfl
  | string text => rfl
  | array items => rfl
  | object members => rfl

theorem decodeList_of_forall₂
    {source : Type}
    {decode : Decoder α}
    {read : source → α}
    {sources : List source}
    {items : List Document}
    (decoded : List.Forall₂ (fun source item => decode item = .ok (read source)) sources items) :
    decodeList decode (.array items) = .ok (sources.map read) := by
  show items.mapM decode = _
  induction decoded with
  | nil => rfl
  | cons first _ inductionHypothesis =>
      rw [List.mapM_cons, first, inductionHypothesis]
      rfl

end Precis.Json

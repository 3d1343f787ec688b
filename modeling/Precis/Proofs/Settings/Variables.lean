import Precis.Proofs.Result
import Precis.Proofs.Text.Integer
import Precis.Proofs.Text.Utf8
import Precis.Settings.Command
import Precis.Settings.Environment

/-!
Contract: what one variable is taken for.

Owns which number a variable gives and which model it pins, said of its bytes
alone; that reading a variable gives exactly that; and that the only value of a
variable which is passed over is one that is no text.

Does not own which variables are read, nor in which order.
-/

namespace Precis

/-! ### Names of models -/

/-- Texts that differ at most in the case of ASCII letters. -/
def EqualButForCase (first second : String) : Prop :=
  first.toList.map Char.toLower = second.toList.map Char.toLower

theorem equalButForCase_iff {first second : String} :
    EqualButForCase first second ↔
      Model.Family.lowered first = Model.Family.lowered second := by
  rw [EqualButForCase, ← String.toList_inj, Model.Family.lowered, Model.Family.lowered,
    String.toList_map, String.toList_map]

namespace Model.Id

theorem lowered_name (id : Id) : Family.lowered id.name = id.name := by
  rw [← String.toList_inj, Family.lowered, String.toList_map]
  cases id <;> decide

theorem find?_name (id : Id) : (all.find? fun other => other.name = id.name) = some id := by
  cases id <;> decide

theorem find?_lowered_eq_some_iff {text : String} {id : Id} :
    (all.find? fun other => other.name = Family.lowered text) = some id ↔
      EqualButForCase id.name text := by
  rw [equalButForCase_iff, lowered_name]
  constructor
  · intro found
    simpa using List.find?_some found
  · intro same
    rw [← same, find?_name]

/-- A text names the model whose name it is but for the case. -/
theorem ofText_eq_ok_iff {text : String} {id : Id} :
    ofText text = .ok id ↔ EqualButForCase id.name text := by
  rw [← find?_lowered_eq_some_iff, ofText]
  cases all.find? fun other => other.name = Family.lowered text <;> simp

theorem ofText_eq_error_iff {text cause : String} :
    ofText text = .error cause ↔
      (∀ id : Id, ¬ EqualButForCase id.name text) ∧ cause = "unknown model: " ++ text := by
  simp only [← find?_lowered_eq_some_iff, ofText]
  cases all.find? fun other => other.name = Family.lowered text <;> simp [eq_comm]

end Model.Id

namespace Settings

variable {environment : Environment} {name : String}

/-! ### Texts -/

/-- A variable that is set, but to no text. -/
def Unreadable (environment : Environment) (name : String) : Prop :=
  ∃ bytes, environment name = some bytes ∧
    ∀ text : String, Text.Utf8.encode text.toList ≠ bytes

/-- An environment all of whose values are texts. -/
def Environment.IsText (environment : Environment) : Prop :=
  ∀ name, ¬ Unreadable environment name

/-- The text of a variable, or a default where there is none. -/
def textOr (environment : Environment) (name default : String) : String :=
  (text? environment name).getD default

theorem text?_eq_some_iff {text : String} :
    text? environment name = some text ↔
      environment name = some (Text.Utf8.encode text.toList) := by
  simp only [text?, Option.bind_eq_some_iff, Option.map_eq_some_iff]
  constructor
  · rintro ⟨bytes, isSet, characters, decoded, rfl⟩
    rw [String.toList_ofList, Text.Utf8.decode?_eq_some_iff.mp decoded]
    exact isSet
  · intro isSet
    exact ⟨_, isSet, text.toList, Text.Utf8.decode?_eq_some_iff.mpr rfl, String.ofList_toList⟩

theorem text?_eq_none_iff :
    text? environment name = none ↔
      environment name = none ∨ Unreadable environment name := by
  have noText : text? environment name = none ↔
      ∀ text : String, environment name ≠ some (Text.Utf8.encode text.toList) := by
    simp only [Option.eq_none_iff_forall_ne_some, ne_eq, text?_eq_some_iff]
  rw [noText]
  cases isSet : environment name with
  | none => simp
  | some bytes => simp [Unreadable, isSet, eq_comm]

theorem filledText?_eq_some_iff {text : String} :
    filledText? environment name = some text ↔
      environment name = some (Text.Utf8.encode text.toList) ∧
        Text.isBlankText text = false := by
  rw [filledText?, Option.filter_eq_some_iff, text?_eq_some_iff, Bool.not_eq_true']

theorem filledText?_eq_none_iff :
    filledText? environment name = none ↔
      text? environment name = none ∨
        ∃ text : String, environment name = some (Text.Utf8.encode text.toList) ∧
          Text.isBlankText text = true := by
  simp only [← text?_eq_some_iff, filledText?]
  cases text? environment name with
  | none => simp
  | some text => simp [Option.filter_some]

/-- The environment in which variables are set to texts. -/
def Environment.ofTexts (texts : List (String × String)) : Environment :=
  fun name => (texts.lookup name).map fun text => Text.Utf8.encode text.toList

theorem Environment.isText_ofTexts (texts : List (String × String)) : (ofTexts texts).IsText := by
  rintro name ⟨bytes, isSet, noText⟩
  obtain ⟨text, -, isBytes⟩ := Option.map_eq_some_iff.mp isSet
  exact noText text isBytes

/-! ### Numbers -/

/-- A variable that holds a number of a range, and the number that counts where
the variable is unset. -/
structure Quantity where
  name : String
  range : Text.IntegerRange
  default : Int
  least_le_default : range.least ≤ default := by decide
  default_le_greatest : default ≤ range.greatest := by decide

namespace Quantity

variable {quantity : Quantity} {number : Int} {fault : Fault}

/-- What the code makes of the variable. -/
def read (quantity : Quantity) (environment : Environment) : Except Fault Int :=
  numberOr environment quantity.name quantity.range quantity.default

/-- Between blanks, a text holds a numeral of a number in the range. -/
def Spells (quantity : Quantity) (text : String) (number : Int) : Prop :=
  Text.Denotes quantity.range (Text.trim text).toList number ∧
    quantity.range.least ≤ number ∧ number ≤ quantity.range.greatest

/-- The number that a variable gives: what its text spells, and the default
where it is unset. -/
inductive Gives (quantity : Quantity) (environment : Environment) : Int → Prop
  | unset
      (unset : environment quantity.name = none) :
      Gives quantity environment quantity.default
  | spelled
      {text : String}
      {number : Int}
      (isSet : environment quantity.name = some (Text.Utf8.encode text.toList))
      (spells : quantity.Spells text number) :
      Gives quantity environment number

/-- A variable that is set to a text which spells no number of the range. -/
def Malformed (quantity : Quantity) (environment : Environment) : Prop :=
  ∃ text : String, environment quantity.name = some (Text.Utf8.encode text.toList) ∧
    ∀ number, ¬ quantity.Spells text number

/-- Where no text is found the default counts, whether the variable is unset or
set to something else. -/
theorem read_of_textless (textless : text? environment quantity.name = none) :
    quantity.read environment = .ok quantity.default := by
  rw [read, numberOr, textless]

theorem read_of_text
    {text : String}
    (isText : text? environment quantity.name = some text) :
    quantity.read environment =
      (Text.readInteger quantity.range (Text.trim text).toList).mapError fun cause =>
        .invalid quantity.name cause.message := by
  rw [read, numberOr, isText]
  simp only
  cases Text.readInteger quantity.range (Text.trim text).toList <;> rfl

theorem read_eq_ok_iff :
    quantity.read environment = .ok number ↔
      quantity.Gives environment number ∨
        Unreadable environment quantity.name ∧ number = quantity.default := by
  cases isText : text? environment quantity.name with
  | none =>
      rw [read_of_textless isText, Except.ok.injEq]
      constructor
      · rintro rfl
        rcases text?_eq_none_iff.mp isText with unset | unreadable
        · exact .inl (.unset unset)
        · exact .inr ⟨unreadable, rfl⟩
      · rintro (gives | ⟨-, rfl⟩)
        · cases gives with
          | unset => rfl
          | spelled isSet =>
              rw [text?_eq_some_iff.mpr isSet] at isText
              cases isText
        · rfl
  | some text =>
      have spells : quantity.read environment = .ok number ↔ quantity.Spells text number := by
        rw [read_of_text isText, Spells, ← Text.readInteger_eq_ok_iff]
        cases Text.readInteger quantity.range (Text.trim text).toList <;> simp [Except.mapError]
      rw [spells]
      constructor
      · exact fun spells => .inl (.spelled (text?_eq_some_iff.mp isText) spells)
      · rintro (gives | ⟨unreadable, -⟩)
        · cases gives with
          | unset unset =>
              rw [text?_eq_none_iff.mpr (.inl unset)] at isText
              cases isText
          | spelled isSet spells =>
              rw [text?_eq_some_iff.mpr isSet] at isText
              rwa [← Option.some.inj isText]
        · rw [text?_eq_none_iff.mpr (.inr unreadable)] at isText
          cases isText

theorem within_of_read (read : quantity.read environment = .ok number) :
    quantity.range.least ≤ number ∧ number ≤ quantity.range.greatest := by
  have ofDefault := And.intro quantity.least_le_default quantity.default_le_greatest
  rcases read_eq_ok_iff.mp read with gives | ⟨-, rfl⟩
  · cases gives with
    | unset => exact ofDefault
    | spelled isSet spells => exact spells.2
  · exact ofDefault

/-- A failed reading names the variable, whose text spells no number. -/
theorem malformed_of_read_eq_error (failed : quantity.read environment = .error fault) :
    quantity.Malformed environment ∧
      ∃ cause : Text.IntegerError, fault = .invalid quantity.name cause.message := by
  cases isText : text? environment quantity.name with
  | none =>
      rw [read_of_textless isText] at failed
      cases failed
  | some text =>
      rw [read_of_text isText] at failed
      cases read : Text.readInteger quantity.range (Text.trim text).toList with
      | ok number =>
          rw [read] at failed
          cases failed
      | error cause =>
          rw [read] at failed
          refine ⟨⟨text, text?_eq_some_iff.mp isText, fun number spells => ?_⟩, cause,
            (Except.error.inj failed).symm⟩
          rw [Text.readInteger_eq_ok_iff.mpr spells] at read
          cases read

theorem Malformed.exists_read_eq_error (malformed : quantity.Malformed environment) :
    ∃ fault, quantity.read environment = .error fault := by
  obtain ⟨text, isSet, spellsNothing⟩ := malformed
  rw [read_of_text (text?_eq_some_iff.mpr isSet)]
  cases read : Text.readInteger quantity.range (Text.trim text).toList with
  | ok number => exact absurd (Text.readInteger_eq_ok_iff.mp read) (spellsNothing number)
  | error cause => exact ⟨_, rfl⟩

/-- A number that is held in a type of the width of the range is not changed by it. -/
theorem map_read_eq_ok_iff
    {α : Type}
    {value : α}
    (quantity : Quantity)
    (ofInt : Int → α)
    (toInt : α → Int)
    (keeps : ∀ number, quantity.range.least ≤ number → number ≤ quantity.range.greatest →
      toInt (ofInt number) = number)
    (ofInt_toInt : ofInt (toInt value) = value) :
    (quantity.read environment).map ofInt = .ok value ↔
      quantity.read environment = .ok (toInt value) := by
  rw [map_eq_ok_iff]
  constructor
  · rintro ⟨number, read, rfl⟩
    have within := within_of_read read
    rw [keeps number within.1 within.2, read]
  · intro read
    exact ⟨_, read, ofInt_toInt⟩

end Quantity

section Widths

variable {default32 : UInt32} {default64 : UInt64} {defaultSigned : Int64}

/-- A quantity of 32 bits without a sign. -/
def quantity32 (name : String) (default : UInt32) : Quantity where
  name
  range := .unsigned32
  default := default.toNat
  least_le_default := Int.natCast_nonneg _
  default_le_greatest := by
    have small := default.toNat_lt
    show (default.toNat : Int) ≤ 4294967295
    omega

/-- A quantity of 64 bits without a sign. -/
def quantity64 (name : String) (default : UInt64) : Quantity where
  name
  range := .unsigned64
  default := default.toNat
  least_le_default := Int.natCast_nonneg _
  default_le_greatest := by
    have small := default.toNat_lt
    show (default.toNat : Int) ≤ 18446744073709551615
    omega

/-- A quantity of 64 bits with a sign. -/
def signedQuantity64 (name : String) (default : Int64) : Quantity where
  name
  range := .signed64
  default := default.toInt
  least_le_default := default.le_toInt
  default_le_greatest := Int.le_of_lt_add_one default.toInt_lt

theorem unsigned32Or_eq_ok_iff {value : UInt32} :
    unsigned32Or environment name default32 = .ok value ↔
      (quantity32 name default32).read environment = .ok (value.toNat : Int) := by
  refine (quantity32 name default32).map_read_eq_ok_iff
    (fun number => UInt32.ofNat number.toNat) (fun value => value.toNat)
    (fun number least greatest => ?_) UInt32.ofNat_toNat
  have small : number.toNat < 4294967296 := by
    have bounded : number ≤ 4294967295 := greatest
    omega
  rw [UInt32.toNat_ofNat_of_lt' small]
  exact Int.toNat_of_nonneg least

theorem unsigned64Or_eq_ok_iff {value : UInt64} :
    unsigned64Or environment name default64 = .ok value ↔
      (quantity64 name default64).read environment = .ok (value.toNat : Int) := by
  refine (quantity64 name default64).map_read_eq_ok_iff
    (fun number => UInt64.ofNat number.toNat) (fun value => value.toNat)
    (fun number least greatest => ?_) UInt64.ofNat_toNat
  have small : number.toNat < 18446744073709551616 := by
    have bounded : number ≤ 18446744073709551615 := greatest
    omega
  rw [UInt64.toNat_ofNat_of_lt' small]
  exact Int.toNat_of_nonneg least

theorem signed64Or_eq_ok_iff {value : Int64} :
    signed64Or environment name defaultSigned = .ok value ↔
      (signedQuantity64 name defaultSigned).read environment = .ok value.toInt := by
  refine (signedQuantity64 name defaultSigned).map_read_eq_ok_iff Int64.ofInt Int64.toInt
    (fun number least greatest => ?_) (Int64.ofInt_toInt value)
  exact Int64.toInt_ofInt_of_le least (Int.lt_add_one_of_le greatest)

/-- What is made of a number of 64 bits depends on the number alone. -/
theorem exists_unsigned64Or_iff {Fits : Nat → Prop} :
    (∃ value, unsigned64Or environment name default64 = .ok value ∧ Fits value.toNat) ↔
      ∃ number : Nat,
        (quantity64 name default64).read environment = .ok (number : Int) ∧ Fits number := by
  simp only [unsigned64Or_eq_ok_iff]
  constructor
  · rintro ⟨value, read, fits⟩
    exact ⟨_, read, fits⟩
  · rintro ⟨number, read, fits⟩
    have small : number < 18446744073709551616 := by
      have bounded : (number : Int) ≤ 18446744073709551615 := (Quantity.within_of_read read).2
      omega
    refine ⟨UInt64.ofNat number, ?_, ?_⟩
    · rwa [UInt64.toNat_ofNat_of_lt' small]
    · rwa [UInt64.toNat_ofNat_of_lt' small]

end Widths

/-! ### Models -/

/-- The variable that pins a model. -/
def modelVariable : String := "INBOX_TODO_MODEL"

/-- The model that is pinned: none where the variable is unset or blank, and
otherwise the one that it names between blanks. -/
inductive PinsModel (environment : Environment) : Option Model.Id → Prop
  | unset
      (unset : environment modelVariable = none) :
      PinsModel environment none
  | blank
      {text : String}
      (isSet : environment modelVariable = some (Text.Utf8.encode text.toList))
      (blank : Text.isBlankText text = true) :
      PinsModel environment none
  | named
      {text : String}
      {id : Model.Id}
      (isSet : environment modelVariable = some (Text.Utf8.encode text.toList))
      (notBlank : Text.isBlankText text = false)
      (named : EqualButForCase id.name (Text.trim text)) :
      PinsModel environment (some id)

/-- A text that the variable is set to, is not blank and names no model. -/
structure NamesNoModel (environment : Environment) (text : String) : Prop where
  isSet : environment modelVariable = some (Text.Utf8.encode text.toList)
  notBlank : Text.isBlankText text = false
  unknown : ∀ id : Model.Id, ¬ EqualButForCase id.name (Text.trim text)

theorem pinnedModel_of_empty (empty : filledText? environment modelVariable = none) :
    CommandSettings.pinnedModel environment = .ok none := by
  change filledText? environment "INBOX_TODO_MODEL" = none at empty
  rw [CommandSettings.pinnedModel, empty]

theorem pinnedModel_of_filled
    {text : String}
    (filled : filledText? environment modelVariable = some text) :
    CommandSettings.pinnedModel environment =
      ((Model.Id.ofText (Text.trim text)).map some).mapError (.invalid modelVariable) := by
  change filledText? environment "INBOX_TODO_MODEL" = some text at filled
  rw [CommandSettings.pinnedModel, filled]
  simp only
  cases Model.Id.ofText (Text.trim text) <;> rfl

theorem pinnedModel_eq_ok_iff {model : Option Model.Id} :
    CommandSettings.pinnedModel environment = .ok model ↔
      PinsModel environment model ∨ Unreadable environment modelVariable ∧ model = none := by
  cases filled : filledText? environment modelVariable with
  | none =>
      rw [pinnedModel_of_empty filled, Except.ok.injEq]
      constructor
      · rintro rfl
        rcases filledText?_eq_none_iff.mp filled with textless | ⟨text, isSet, blank⟩
        · rcases text?_eq_none_iff.mp textless with unset | unreadable
          · exact .inl (.unset unset)
          · exact .inr ⟨unreadable, rfl⟩
        · exact .inl (.blank isSet blank)
      · rintro (pins | ⟨-, rfl⟩)
        · cases pins with
          | unset | blank => rfl
          | named isSet notBlank =>
              rw [filledText?_eq_some_iff.mpr ⟨isSet, notBlank⟩] at filled
              cases filled
        · rfl
  | some text =>
      have isRead : CommandSettings.pinnedModel environment = .ok model ↔
          ∃ id : Model.Id, EqualButForCase id.name (Text.trim text) ∧ some id = model := by
        simp only [pinnedModel_of_filled filled, ← Model.Id.ofText_eq_ok_iff]
        cases Model.Id.ofText (Text.trim text) <;> simp [Except.map, Except.mapError]
      rw [isRead]
      constructor
      · rintro ⟨id, named, rfl⟩
        obtain ⟨isSet, notBlank⟩ := filledText?_eq_some_iff.mp filled
        exact .inl (.named isSet notBlank named)
      · rintro (pins | ⟨unreadable, -⟩)
        · cases pins with
          | unset unset =>
              rw [filledText?_eq_none_iff.mpr (.inl (text?_eq_none_iff.mpr (.inl unset)))] at filled
              cases filled
          | blank isSet blank =>
              rw [filledText?_eq_none_iff.mpr (.inr ⟨_, isSet, blank⟩)] at filled
              cases filled
          | named isSet notBlank named =>
              rw [filledText?_eq_some_iff.mpr ⟨isSet, notBlank⟩] at filled
              obtain rfl := Option.some.inj filled
              exact ⟨_, named, rfl⟩
        · rw [filledText?_eq_none_iff.mpr (.inl (text?_eq_none_iff.mpr (.inr unreadable)))]
            at filled
          cases filled

/-- A model is refused exactly where the text names none, and the message shows the text. -/
theorem pinnedModel_eq_error_iff {fault : Fault} :
    CommandSettings.pinnedModel environment = .error fault ↔
      ∃ text, NamesNoModel environment text ∧
        fault = .invalid modelVariable ("unknown model: " ++ Text.trim text) := by
  cases filled : filledText? environment modelVariable with
  | none =>
      rw [pinnedModel_of_empty filled]
      simp only [reduceCtorEq, false_iff]
      rintro ⟨text, namesNone, -⟩
      rw [filledText?_eq_some_iff.mpr ⟨namesNone.isSet, namesNone.notBlank⟩] at filled
      cases filled
  | some text =>
      have refused : CommandSettings.pinnedModel environment = .error fault ↔
          ∃ cause, Model.Id.ofText (Text.trim text) = .error cause ∧
            fault = .invalid modelVariable cause := by
        rw [pinnedModel_of_filled filled]
        cases Model.Id.ofText (Text.trim text) <;> simp [Except.map, Except.mapError, eq_comm]
      rw [refused]
      constructor
      · rintro ⟨cause, unnamed, rfl⟩
        obtain ⟨isSet, notBlank⟩ := filledText?_eq_some_iff.mp filled
        obtain ⟨unknown, rfl⟩ := Model.Id.ofText_eq_error_iff.mp unnamed
        exact ⟨text, ⟨isSet, notBlank, unknown⟩, rfl⟩
      · rintro ⟨other, namesNone, rfl⟩
        rw [filledText?_eq_some_iff.mpr ⟨namesNone.isSet, namesNone.notBlank⟩] at filled
        obtain rfl := Option.some.inj filled
        exact ⟨_, Model.Id.ofText_eq_error_iff.mpr ⟨namesNone.unknown, rfl⟩, rfl⟩

end Settings

end Precis

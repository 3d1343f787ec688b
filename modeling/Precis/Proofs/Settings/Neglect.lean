import Precis.Proofs.Settings.Loading

/-!
Contract: variables that are passed over.

Owns that settings depend on an environment through the texts of its variables
alone; that a variable which is set to a text is never passed over, for its
number counts or the load fails; and that a variable which is set to anything
else is passed over without a word.

Does not own which numbers texts spell.
-/

namespace Precis.Settings

/-- An environment with one variable taken out of it. -/
def Environment.unset (environment : Environment) (name : String) : Environment :=
  fun other => if other = name then none else environment other

namespace Loader

variable {environment : Environment} {name : String}

/-! ### What is passed over -/

/-- Only texts count. -/
theorem load_congr
    {first second : Environment}
    (same : ∀ name, text? first name = text? second name)
    (loader : Loader) :
    loader.load first = loader.load second := by
  have texts : text? first = text? second := funext same
  have filled : filledText? first = filledText? second := by
    funext name
    rw [filledText?, filledText?, texts]
  have numbers : numberOr first = numberOr second := by
    funext name range default
    rw [numberOr, numberOr, texts]
  cases loader with
  | summarizer =>
      show SummarizerSettings.ofEnvironment first = SummarizerSettings.ofEnvironment second
      unfold SummarizerSettings.ofEnvironment unsigned32Or unsigned64Or signed64Or
      rw [numbers, filled, texts]
  | command =>
      show CommandSettings.ofEnvironment first = CommandSettings.ofEnvironment second
      unfold CommandSettings.ofEnvironment CommandSettings.pinnedModel unsigned32Or
      rw [numbers, filled, texts]
  | gateway =>
      show GatewaySettings.ofEnvironment first = GatewaySettings.ofEnvironment second
      unfold GatewaySettings.ofEnvironment unsigned64Or
      rw [numbers, filled, texts]

/-- A variable that holds no text might as well be unset. -/
theorem load_unset_of_unreadable
    (unreadable : Unreadable environment name)
    (loader : Loader) :
    loader.load environment = loader.load (environment.unset name) := by
  apply load_congr
  intro other
  by_cases here : other = name
  · rw [here, text?_eq_none_iff.mpr (.inr unreadable), text?_eq_none_iff.mpr (.inl (if_pos rfl))]
  · have kept : environment.unset name other = environment other := if_neg here
    rw [text?, text?, kept]

/-! ### What is not -/

/-- A malformed number fails the load, and is named unless something before it is. -/
theorem load_of_malformed
    {loader : Loader}
    {earlier later : List Reading}
    {quantity : Quantity}
    (split : loader.readings = earlier ++ .number quantity :: later)
    (malformed : quantity.Malformed environment)
    (unoffending : ∀ other ∈ earlier, ¬ other.Offends environment) :
    ∃ message, loader.load environment = .error (.invalid quantity.name message) := by
  obtain ⟨fault, failed⟩ := malformed.exists_read_eq_error
  obtain ⟨-, cause, rfl⟩ := Quantity.malformed_of_read_eq_error failed
  refine ⟨cause.message, causeOf_eq_some_iff.mp ?_⟩
  rw [causeOf_load, List.findSome?_eq_some_iff]
  refine ⟨earlier, _, later, split, causeOf_eq_some_iff.mpr failed, fun other member => ?_⟩
  have blameless := unoffending other member
  rw [Reading.offends_iff] at blameless
  exact Option.eq_none_iff_forall_ne_some.mpr fun fault caused => blameless ⟨fault, caused⟩

/-- The only variables that are passed over are those that hold no text. Where a
load succeeds, a variable that is set to a text has given its number; where a
number is malformed the load fails, and names it unless a variable that is read
before it offends. But a variable that is set to bytes of no text makes no
difference: the load is that of the environment without it. -/
theorem passed_over_iff_unreadable (loader : Loader) (environment : Environment) :
    (∀ settings, loader.load environment = .ok settings ↔
        loader.IsRead
          (fun quantity number => quantity.Gives environment number ∨
            Unreadable environment quantity.name ∧ number = quantity.default)
          (fun model => PinsModel environment model ∨
            Unreadable environment modelVariable ∧ model = none)
          environment settings) ∧
      (∀ earlier quantity later, loader.readings = earlier ++ .number quantity :: later →
        quantity.Malformed environment →
          (∃ fault, loader.load environment = .error fault) ∧
          ((∀ other ∈ earlier, ¬ other.Offends environment) →
            ∃ message, loader.load environment = .error (.invalid quantity.name message))) ∧
      ∀ name, Unreadable environment name →
        loader.load environment = loader.load (environment.unset name) := by
  refine ⟨fun settings => ?_, fun earlier quantity later split malformed => ⟨?_, ?_⟩,
    fun name unreadable => load_unset_of_unreadable unreadable loader⟩
  · rw [load_eq_ok_iff]
    simp only [Quantity.read_eq_ok_iff, pinnedModel_eq_ok_iff]
  · have member : Reading.number quantity ∈ loader.readings := by
      rw [split]
      exact List.mem_append_right _ List.mem_cons_self
    exact exists_load_eq_error_iff.mpr ⟨_, member, malformed⟩
  · exact load_of_malformed split malformed

/-- A limit that is set to one byte of no text: the load succeeds with the
standard limit, as if the limit were unset. -/
theorem unreadable_limit_passed_over :
    let environment : Environment :=
      fun name => if name = SummarizerSettings.limitQuantity.name then some [0xff] else none
    environment SummarizerSettings.limitQuantity.name = some [0xff] ∧
      (∀ text : String, Text.Utf8.encode text.toList ≠ [0xff]) ∧
      summarizer.load environment = .ok SummarizerSettings.standard ∧
      SummarizerSettings.standard.limit.toInt = SummarizerSettings.limitQuantity.default := by
  intro environment
  refine ⟨rfl, fun text isText => ?_, ?_, rfl⟩
  · have undecodable : Text.Utf8.decode? [0xff] = none := by decide +kernel
    rw [Text.Utf8.decode?_eq_some_iff.mpr isText] at undecodable
    cases undecodable
  · exact toOption_eq_some_iff.mp
      (show (SummarizerSettings.ofEnvironment environment).toOption = some .standard by
        decide +kernel)

end Loader

end Precis.Settings

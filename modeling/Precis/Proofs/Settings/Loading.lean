import Precis.Proofs.Settings.Variables
import Precis.Settings.Gateway
import Precis.Settings.Summarizer

/-!
Contract: what settings are read from an environment.

Owns the three loaders of settings as lists of the variables that each of them
reads, in order; that a loader succeeds with exactly the settings which these
variables give; and that it fails for the first variable of its list that
offends, and names it.

Does not own what settings are used for.
-/

namespace Precis.Settings

/-! ### What is read -/

/-- The variable that holds the path of the database. -/
def pathVariable : String := "INBOX_TODO_DATABASE_PATH"

/-- The variables from which a reading can fail. -/
inductive Reading where
  | number (quantity : Quantity)
  | model
  | path

namespace Reading

/-- The name of the variable. -/
def name : Reading → String
  | .number quantity => quantity.name
  | .model => modelVariable
  | .path => pathVariable

/-- The variable is not as it has to be: a number that is set and malformed, a
model that is set, not blank and unknown, a path that is not set or blank. -/
def Offends (environment : Environment) : Reading → Prop
  | .number quantity => quantity.Malformed environment
  | .model => ∃ text, NamesNoModel environment text
  | .path =>
      ¬ ∃ path : String, environment pathVariable = some (Text.Utf8.encode path.toList) ∧
        Text.isBlankText path = false

/-- A fault that names the variable: one that is missing where a path is, one
whose value is not acceptable everywhere else. -/
def Names (fault : Fault) : Reading → Prop
  | .path => fault = .missing pathVariable
  | reading => ∃ message, fault = .invalid reading.name message

end Reading

/-- The fault names the first of the readings that offends. -/
def FirstOffence (environment : Environment) (readings : List Reading) (fault : Fault) : Prop :=
  ∃ earlier reading later, readings = earlier ++ reading :: later ∧
    (∀ other ∈ earlier, ¬ other.Offends environment) ∧
    reading.Offends environment ∧ reading.Names fault

/-! ### The settings of each loader -/

section Readings

-- What counts as the number of a variable, and as the model that is pinned.
variable (gives : Quantity → Int → Prop) (pins : Option Model.Id → Prop)
  (environment : Environment)

namespace SummarizerSettings

def ceilingQuantity : Quantity :=
  quantity32 "INBOX_TODO_MAX_INPUT_TOKENS" Model.defaultCeiling

def windowQuantity : Quantity :=
  quantity64 "INBOX_TODO_USAGE_WINDOW_SECS" 86400

def limitQuantity : Quantity :=
  signedQuantity64 "INBOX_TODO_DAILY_TOKEN_LIMIT" 3000000

def backoffQuantity : Quantity :=
  quantity64 "INBOX_TODO_RETRY_BACKOFF_MS" 1000

/-- Each setting is what its variable gives: the window in seconds, the pause in
milliseconds. -/
structure IsRead (settings : SummarizerSettings) : Prop where
  credential : settings.credential = filledText? environment "GEMINI_API_KEY"
  defaultCeiling : gives ceilingQuantity settings.defaultCeiling.toNat
  window : ∃ seconds : Nat, gives windowQuantity seconds ∧ settings.window = .ofSeconds seconds
  limit : gives limitQuantity settings.limit.toInt
  backoff : ∃ milliseconds : Nat,
    gives backoffQuantity milliseconds ∧ settings.backoff = .ofMilliseconds milliseconds
  baseUrl : settings.baseUrl = textOr environment "INBOX_TODO_GEMINI_BASE_URL" defaultBaseUrl

end SummarizerSettings

namespace CommandSettings

def ceilingQuantity : Quantity :=
  quantity32 "INBOX_TODO_REQUEST_MAX_TOKENS" 0

/-- Each setting is what its variable gives; a ceiling of zero is none. -/
structure IsRead (settings : CommandSettings) : Prop where
  instruction : settings.instruction = textOr environment "INBOX_TODO_PROMPT" defaultInstruction
  model : pins settings.model
  ceiling : ∃ number : UInt32, gives ceilingQuantity number.toNat ∧
    settings.ceiling = if number = 0 then none else some number

end CommandSettings

namespace GatewaySettings

/-- The path of the database, which has to be there. -/
def readPath (environment : Environment) : Except Fault String :=
  match filledText? environment pathVariable with
  | some path => .ok path
  | none => .error (.missing pathVariable)

def timeoutQuantity : Quantity :=
  quantity64 "INBOX_TODO_HEALTH_CHECK_TIMEOUT_SECS" 10

def intervalQuantity : Quantity :=
  quantity64 "INBOX_TODO_HEALTH_POLL_MS" 500

/-- Each setting is what its variable gives: the timeout in seconds, the interval
in milliseconds. The path is set and not blank. -/
structure IsRead (settings : GatewaySettings) : Prop where
  summaryAddress : settings.summaryAddress = textOr environment "INBOX_TODO_LLM_ADDR" ":50051"
  todoAddress : settings.todoAddress = textOr environment "INBOX_TODO_TODO_ADDR" ":50052"
  databaseAddress :
    settings.databaseAddress = textOr environment "INBOX_TODO_DATABASE_ADDR" ":50053"
  databasePath :
    environment pathVariable = some (Text.Utf8.encode settings.databasePath.toList) ∧
      Text.isBlankText settings.databasePath = false
  healthTimeout : ∃ seconds : Nat,
    gives timeoutQuantity seconds ∧ settings.healthTimeout = .ofSeconds seconds
  healthInterval : ∃ milliseconds : Nat,
    gives intervalQuantity milliseconds ∧ settings.healthInterval = .ofMilliseconds milliseconds

end GatewaySettings

/-- The loaders of settings. -/
inductive Loader where
  | summarizer
  | command
  | gateway

namespace Loader

/-- The settings that a loader gives. -/
def Loaded : Loader → Type
  | .summarizer => SummarizerSettings
  | .command => CommandSettings
  | .gateway => GatewaySettings

/-- What a loader makes of an environment. -/
def load : (loader : Loader) → Environment → Except Fault loader.Loaded
  | .summarizer => SummarizerSettings.ofEnvironment
  | .command => CommandSettings.ofEnvironment
  | .gateway => GatewaySettings.ofEnvironment

/-- The variables from which a loader can fail, in the order of reading. -/
def readings : Loader → List Reading
  | .summarizer =>
      [.number SummarizerSettings.ceilingQuantity, .number SummarizerSettings.windowQuantity,
        .number SummarizerSettings.limitQuantity, .number SummarizerSettings.backoffQuantity]
  | .command => [.model, .number CommandSettings.ceilingQuantity]
  | .gateway =>
      [.path, .number GatewaySettings.timeoutQuantity, .number GatewaySettings.intervalQuantity]

/-- Each of the settings is what its variable gives. -/
def IsRead : (loader : Loader) → loader.Loaded → Prop
  | .summarizer => SummarizerSettings.IsRead gives environment
  | .command => CommandSettings.IsRead gives pins environment
  | .gateway => GatewaySettings.IsRead gives environment

end Loader

end Readings

/-! ### Success -/

section Success

variable {environment : Environment}

theorem SummarizerSettings.ofEnvironment_eq_ok_iff {settings : SummarizerSettings} :
    ofEnvironment environment = .ok settings ↔
      settings.IsRead (fun quantity number => quantity.read environment = .ok number)
        environment := by
  simp only [ofEnvironment, bind_eq_ok_iff, Except.ok.injEq, unsigned32Or_eq_ok_iff,
    signed64Or_eq_ok_iff]
  constructor
  · rintro ⟨ceiling, isCeiling, seconds, isWindow, limit, isLimit, milliseconds, isBackoff, rfl⟩
    exact
      { credential := rfl
        defaultCeiling := isCeiling
        window := exists_unsigned64Or_iff.mp ⟨seconds, isWindow, rfl⟩
        limit := isLimit
        backoff := exists_unsigned64Or_iff.mp ⟨milliseconds, isBackoff, rfl⟩
        baseUrl := rfl }
  · intro isRead
    obtain ⟨seconds, isWindow, windowEq⟩ := exists_unsigned64Or_iff.mpr isRead.window
    obtain ⟨milliseconds, isBackoff, backoffEq⟩ := exists_unsigned64Or_iff.mpr isRead.backoff
    refine ⟨_, isRead.defaultCeiling, seconds, isWindow, _, isRead.limit, milliseconds, isBackoff,
      ?_⟩
    obtain ⟨credential, -, -, -, -, baseUrl⟩ := isRead
    cases settings
    simp_all [textOr]

theorem CommandSettings.ofEnvironment_eq_ok_iff {settings : CommandSettings} :
    ofEnvironment environment = .ok settings ↔
      settings.IsRead (fun quantity number => quantity.read environment = .ok number)
        (fun model => pinnedModel environment = .ok model) environment := by
  simp only [ofEnvironment, bind_eq_ok_iff, Except.ok.injEq, unsigned32Or_eq_ok_iff]
  constructor
  · rintro ⟨model, isModel, ceiling, isCeiling, rfl⟩
    exact { instruction := rfl, model := isModel, ceiling := ⟨ceiling, isCeiling, rfl⟩ }
  · intro isRead
    obtain ⟨instruction, isModel, ceiling, isCeiling, ceilingEq⟩ := isRead
    refine ⟨_, isModel, ceiling, isCeiling, ?_⟩
    cases settings
    simp_all [textOr]

theorem GatewaySettings.readPath_eq_ok_iff {path : String} :
    readPath environment = .ok path ↔
      environment pathVariable = some (Text.Utf8.encode path.toList) ∧
        Text.isBlankText path = false := by
  rw [← filledText?_eq_some_iff, readPath]
  cases filledText? environment pathVariable <;> simp

/-- The path is read first, and everything else after it. -/
theorem GatewaySettings.ofEnvironment_eq :
    ofEnvironment environment = (do
      let databasePath ← readPath environment
      let timeoutSeconds ← unsigned64Or environment "INBOX_TODO_HEALTH_CHECK_TIMEOUT_SECS" 10
      let intervalMilliseconds ← unsigned64Or environment "INBOX_TODO_HEALTH_POLL_MS" 500
      .ok
        { summaryAddress := textOr environment "INBOX_TODO_LLM_ADDR" ":50051"
          todoAddress := textOr environment "INBOX_TODO_TODO_ADDR" ":50052"
          databaseAddress := textOr environment "INBOX_TODO_DATABASE_ADDR" ":50053"
          databasePath
          healthTimeout := .ofSeconds timeoutSeconds.toNat
          healthInterval := .ofMilliseconds intervalMilliseconds.toNat }) := by
  unfold ofEnvironment readPath pathVariable
  cases filledText? environment "INBOX_TODO_DATABASE_PATH" <;> rfl

theorem GatewaySettings.ofEnvironment_eq_ok_iff {settings : GatewaySettings} :
    ofEnvironment environment = .ok settings ↔
      settings.IsRead (fun quantity number => quantity.read environment = .ok number)
        environment := by
  simp only [ofEnvironment_eq, bind_eq_ok_iff, Except.ok.injEq]
  constructor
  · rintro ⟨path, isPath, seconds, isTimeout, milliseconds, isInterval, rfl⟩
    exact
      { summaryAddress := rfl
        todoAddress := rfl
        databaseAddress := rfl
        databasePath := readPath_eq_ok_iff.mp isPath
        healthTimeout := exists_unsigned64Or_iff.mp ⟨seconds, isTimeout, rfl⟩
        healthInterval := exists_unsigned64Or_iff.mp ⟨milliseconds, isInterval, rfl⟩ }
  · intro isRead
    obtain ⟨seconds, isTimeout, timeoutEq⟩ := exists_unsigned64Or_iff.mpr isRead.healthTimeout
    obtain ⟨milliseconds, isInterval, intervalEq⟩ :=
      exists_unsigned64Or_iff.mpr isRead.healthInterval
    refine ⟨_, readPath_eq_ok_iff.mpr isRead.databasePath, seconds, isTimeout, milliseconds,
      isInterval, ?_⟩
    obtain ⟨summaryAddress, todoAddress, databaseAddress, -, -, -⟩ := isRead
    cases settings
    simp_all

/-- A loader succeeds with the settings that the code reads from the variables. -/
theorem Loader.load_eq_ok_iff {loader : Loader} {settings : loader.Loaded} :
    loader.load environment = .ok settings ↔
      loader.IsRead (fun quantity number => quantity.read environment = .ok number)
        (fun model => CommandSettings.pinnedModel environment = .ok model) environment
        settings := by
  cases loader with
  | summarizer => exact SummarizerSettings.ofEnvironment_eq_ok_iff
  | command => exact CommandSettings.ofEnvironment_eq_ok_iff
  | gateway => exact GatewaySettings.ofEnvironment_eq_ok_iff

end Success

/-! ### Failure -/

section Failure

variable {environment : Environment}

theorem GatewaySettings.readPath_eq_error_iff {fault : Fault} :
    readPath environment = .error fault ↔
      Reading.path.Offends environment ∧ fault = .missing pathVariable := by
  simp only [Reading.Offends, ← readPath_eq_ok_iff]
  unfold readPath
  cases filledText? environment pathVariable <;> simp [eq_comm]

namespace Reading

/-- The fault that reading the variable has. -/
def cause? (environment : Environment) : Reading → Option Fault
  | .number quantity => causeOf (quantity.read environment)
  | .model => causeOf (CommandSettings.pinnedModel environment)
  | .path => causeOf (GatewaySettings.readPath environment)

variable {reading : Reading} {fault : Fault}

theorem of_cause?_eq_some (caused : reading.cause? environment = some fault) :
    reading.Offends environment ∧ reading.Names fault := by
  cases reading with
  | number quantity =>
      obtain ⟨malformed, cause, rfl⟩ :=
        Quantity.malformed_of_read_eq_error (causeOf_eq_some_iff.mp caused)
      exact ⟨malformed, _, rfl⟩
  | model =>
      obtain ⟨text, namesNone, rfl⟩ := pinnedModel_eq_error_iff.mp (causeOf_eq_some_iff.mp caused)
      exact ⟨⟨text, namesNone⟩, _, rfl⟩
  | path =>
      exact GatewaySettings.readPath_eq_error_iff.mp (causeOf_eq_some_iff.mp caused)

theorem Offends.exists_cause? (offends : reading.Offends environment) :
    ∃ fault, reading.cause? environment = some fault := by
  cases reading with
  | number quantity =>
      obtain ⟨fault, failed⟩ := Quantity.Malformed.exists_read_eq_error offends
      exact ⟨fault, causeOf_eq_some_iff.mpr failed⟩
  | model =>
      obtain ⟨text, namesNone⟩ := offends
      exact ⟨_, causeOf_eq_some_iff.mpr (pinnedModel_eq_error_iff.mpr ⟨text, namesNone, rfl⟩)⟩
  | path =>
      exact ⟨_, causeOf_eq_some_iff.mpr
        (GatewaySettings.readPath_eq_error_iff.mpr ⟨offends, rfl⟩)⟩

theorem offends_iff :
    reading.Offends environment ↔ ∃ fault, reading.cause? environment = some fault :=
  ⟨Offends.exists_cause?, fun ⟨_, caused⟩ => (of_cause?_eq_some caused).1⟩

end Reading

/-- A step of a loader that reads a variable fails for it, or else for those after it. -/
theorem causeOf_bind
    {α β : Type}
    {result : Except Fault α}
    {next : α → Except Fault β}
    {reading : Reading}
    {later : List Reading}
    (here : causeOf result = reading.cause? environment)
    (onwards : ∀ value, causeOf (next value) = later.findSome? (Reading.cause? environment)) :
    causeOf (result >>= next) = (reading :: later).findSome? (Reading.cause? environment) := by
  rw [List.findSome?_cons, ← here]
  cases result with
  | error fault => rfl
  | ok value => exact onwards value

namespace Loader

variable {loader : Loader} {fault : Fault}

theorem causeOf_load (loader : Loader) (environment : Environment) :
    causeOf (loader.load environment) =
      loader.readings.findSome? (Reading.cause? environment) := by
  cases loader with
  | summarizer =>
      exact causeOf_bind (causeOf_map _ _) fun _ => causeOf_bind (causeOf_map _ _) fun _ =>
        causeOf_bind (causeOf_map _ _) fun _ => causeOf_bind (causeOf_map _ _) fun _ => rfl
  | command => exact causeOf_bind rfl fun _ => causeOf_bind (causeOf_map _ _) fun _ => rfl
  | gateway =>
      show causeOf (GatewaySettings.ofEnvironment environment) = _
      rw [GatewaySettings.ofEnvironment_eq]
      exact causeOf_bind rfl fun _ => causeOf_bind (causeOf_map _ _) fun _ =>
        causeOf_bind (causeOf_map _ _) fun _ => rfl

/-- A loader fails for the first variable that offends. -/
theorem firstOffence_of_load_eq_error (failed : loader.load environment = .error fault) :
    FirstOffence environment loader.readings fault := by
  have caused := causeOf_eq_some_iff.mpr failed
  rw [causeOf_load, List.findSome?_eq_some_iff] at caused
  obtain ⟨earlier, reading, later, split, caused, uncaused⟩ := caused
  obtain ⟨offends, names⟩ := Reading.of_cause?_eq_some caused
  refine ⟨earlier, reading, later, split, fun other member offends => ?_, offends, names⟩
  obtain ⟨otherFault, caused⟩ := offends.exists_cause?
  rw [uncaused other member] at caused
  cases caused

/-- A loader fails exactly where one of its variables offends. -/
theorem exists_load_eq_error_iff :
    (∃ fault, loader.load environment = .error fault) ↔
      ∃ reading ∈ loader.readings, reading.Offends environment := by
  simp only [← causeOf_eq_some_iff, causeOf_load, ← Option.isSome_iff_exists,
    List.findSome?_isSome_iff, Reading.offends_iff]

/-- Settings are read exactly. In an environment of texts a loader succeeds with
settings if and only if each of them is what its variable gives: the number that
its text spells between blanks, or the default where it is unset; the model that
it names, or none where it is unset or blank. A loader fails if and only if one
of its variables offends, and then the fault names the first that does. -/
theorem load_exact (loader : Loader) (environment : Environment) (texts : environment.IsText) :
    (∀ settings, loader.load environment = .ok settings ↔
        loader.IsRead (fun quantity => quantity.Gives environment) (PinsModel environment)
          environment settings) ∧
      ((∃ fault, loader.load environment = .error fault) ↔
        ∃ reading ∈ loader.readings, reading.Offends environment) ∧
      ∀ fault, loader.load environment = .error fault →
        FirstOffence environment loader.readings fault := by
  have numbers : (fun (quantity : Quantity) number => quantity.read environment = .ok number) =
      fun quantity => quantity.Gives environment := by
    funext quantity number
    simp [Quantity.read_eq_ok_iff, texts quantity.name]
  have models : (fun model => CommandSettings.pinnedModel environment = .ok model) =
      PinsModel environment := by
    funext model
    simp [pinnedModel_eq_ok_iff, texts modelVariable]
  refine ⟨fun settings => ?_, exists_load_eq_error_iff, fun fault => firstOffence_of_load_eq_error⟩
  rw [load_eq_ok_iff, numbers, models]

/-- Two numbers at the ends of their ranges, one with zeros in front and one that
is unset; and where a number is too large by one, a path that is blank comes first. -/
theorem load_exact_at_the_limits :
    let environment := Environment.ofTexts
      [("INBOX_TODO_MAX_INPUT_TOKENS", " +4294967295\n"),
        ("INBOX_TODO_DAILY_TOKEN_LIMIT", "-9223372036854775808"),
        ("INBOX_TODO_RETRY_BACKOFF_MS", "007"),
        ("INBOX_TODO_DATABASE_PATH", " "),
        ("INBOX_TODO_HEALTH_POLL_MS", "18446744073709551616")]
    let settings : SummarizerSettings :=
      { SummarizerSettings.standard with
        defaultCeiling := 4294967295
        limit := -9223372036854775808
        backoff := .ofMilliseconds 7 }
    environment.IsText ∧
      summarizer.load environment = .ok settings ∧
      summarizer.IsRead (fun quantity => quantity.Gives environment) (PinsModel environment)
        environment settings ∧
      gateway.load environment = .error (.missing pathVariable) ∧
      FirstOffence environment gateway.readings (.missing pathVariable) := by
  intro environment settings
  have texts : environment.IsText := Environment.isText_ofTexts _
  have summarizerRead : summarizer.load environment = .ok settings :=
    toOption_eq_some_iff.mp
      (show (SummarizerSettings.ofEnvironment environment).toOption = some settings by
        decide +kernel)
  have gatewayFails : gateway.load environment = .error (.missing pathVariable) :=
    causeOf_eq_some_iff.mp
      (show causeOf (GatewaySettings.ofEnvironment environment) = some (.missing pathVariable) by
        decide +kernel)
  exact ⟨texts, summarizerRead, ((load_exact .summarizer environment texts).1 settings).mp
    summarizerRead, gatewayFails, (load_exact .gateway environment texts).2.2 _ gatewayFails⟩

end Loader

end Failure

end Precis.Settings

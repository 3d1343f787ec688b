import Precis.Settings.Environment
import Precis.Time

/-!
Contract: the settings of the gateway.

This module owns the variables that configure the gateway, their defaults, and
the order in which they are read. Only the path of the database has no default.
-/

namespace Precis.Settings

structure Endpoint where
  name : String
  address : String
deriving DecidableEq, Repr

structure GatewaySettings where
  summaryAddress : String
  todoAddress : String
  databaseAddress : String
  databasePath : String
  healthTimeout : Duration
  healthInterval : Duration
deriving DecidableEq, Repr

namespace GatewaySettings

def ofEnvironment (environment : Environment) : Except Fault GatewaySettings := do
  let databasePath ←
    match filledText? environment "INBOX_TODO_DATABASE_PATH" with
    | some path => .ok path
    | none => .error (.missing "INBOX_TODO_DATABASE_PATH")
  let timeoutSeconds ← unsigned64Or environment "INBOX_TODO_HEALTH_CHECK_TIMEOUT_SECS" 10
  let intervalMilliseconds ← unsigned64Or environment "INBOX_TODO_HEALTH_POLL_MS" 500
  .ok
    { summaryAddress := (text? environment "INBOX_TODO_LLM_ADDR").getD ":50051"
      todoAddress := (text? environment "INBOX_TODO_TODO_ADDR").getD ":50052"
      databaseAddress := (text? environment "INBOX_TODO_DATABASE_ADDR").getD ":50053"
      databasePath
      healthTimeout := .ofSeconds timeoutSeconds.toNat
      healthInterval := .ofMilliseconds intervalMilliseconds.toNat }

/-- The services that the gateway depends on, in the order in which they are connected. -/
def endpoints (settings : GatewaySettings) : List Endpoint :=
  [⟨"llm", settings.summaryAddress⟩, ⟨"todo", settings.todoAddress⟩,
    ⟨"database", settings.databaseAddress⟩]

end GatewaySettings

end Precis.Settings

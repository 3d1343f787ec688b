import Precis.Proofs.Command.Probing
import Precis.Proofs.Settings.Loading

/-!
Contract: how a gateway starts up.

Owns that the first of all faults of the settings and the addresses is reported
before anything is sent; that a gateway without a fault sends nothing but
probes, and after them at most the one order to make the database, which goes
out exactly if the wait for the services succeeds; and that the gateway is
ready exactly if this order was met.

Does not own when the probes are sent.
-/

namespace Precis.Command

open Service
open Settings (textOr)

/-! ### Faults before the start -/

/-- What is wrong with each of the variables that settings are read from. -/
def settingsFaults (environment : Settings.Environment) : List (Option String) :=
  Settings.Loader.gateway.readings.map fun reading =>
    (reading.cause? environment).map Settings.Fault.message

/-- The settings are refused for the first fault among them. -/
theorem findSome?_settingsFaults {environment : Settings.Environment} :
    (settingsFaults environment).findSome? id =
      (causeOf (Settings.GatewaySettings.ofEnvironment environment)).map
        Settings.Fault.message := by
  have first := Settings.Loader.causeOf_load .gateway environment
  rw [settingsFaults, List.findSome?_map, Function.id_comp]
  exact List.map_findSome?.symm.trans (congrArg _ first.symm)

/-- What is wrong with the address of a service. -/
def addressFault? [Url.DomainCoding] (service address : String) : Option String :=
  (causeOf (Connection.connect service address)).map Error.message

/-- What is wrong with each of the addresses. -/
def addressFaults [Url.DomainCoding] (environment : Settings.Environment) : List (Option String) :=
  [addressFault? "llm" (textOr environment "INBOX_TODO_LLM_ADDR" ":50051"),
    addressFault? "todo" (textOr environment "INBOX_TODO_TODO_ADDR" ":50052"),
    addressFault? "database" (textOr environment "INBOX_TODO_DATABASE_ADDR" ":50053")]

/-- The first thing that is wrong before anything is sent. -/
def firstFault? [Url.DomainCoding] (environment : Settings.Environment) : Option String :=
  (settingsFaults environment ++ addressFaults environment).findSome? id

/-! ### Building the pool -/

section Building

variable [Url.DomainCoding] {configs : List ServiceConfig}

/-- What is wrong with the address of a service that is to be connected. -/
def faultIn (config : ServiceConfig) : Option String :=
  addressFault? config.name config.address

theorem faultIn_of_connects
    {config : ServiceConfig}
    {connection : Connection}
    (connects : Connection.connect config.name config.address = .ok connection) :
    faultIn config = none := by
  rw [faultIn, addressFault?, connects]
  rfl

theorem faultIn_of_fails
    {config : ServiceConfig}
    {error : Error}
    (fails : Connection.connect config.name config.address = .error error) :
    faultIn config = some error.message := by
  rw [faultIn, addressFault?, fails]
  rfl

theorem findSome?_faultIn_of_connected
    {services : List (ServiceConfig × Connection)}
    (connected : Connected httpConnector services) :
    (services.map Prod.fst).findSome? faultIn = none := by
  rw [List.findSome?_eq_none_iff]
  intro config member
  obtain ⟨⟨_, connection⟩, inServices, rfl⟩ := List.mem_map.mp member
  exact faultIn_of_connects (connected.connects inServices)

/-- A pool cannot be built for the first fault among the addresses, and then
every connection that was opened is closed. -/
theorem build_of_distinct (distinct : (configs.map ServiceConfig.name).Nodup) :
    (∃ services, Connected httpConnector services ∧ services.map Prod.fst = configs) ∨
      ∃ services error, (Pool.build httpConnector configs).pool = Pool.letGo services ∧
        (Pool.build httpConnector configs).failure = some error ∧
        configs.findSome? faultIn = some error.message := by
  rcases connected_or_obstacle httpConnector configs with
    whole | ⟨services, config, later, asked, error, connected, rfl, obstacle⟩
  · exact .inl whole
  · refine .inr ⟨services, error, ?_⟩
    rw [Pool.build_obstacle connected obstacle, List.findSome?_append,
      findSome?_faultIn_of_connected connected, Option.none_or, List.findSome?_cons]
    cases obstacle with
    | taken repeated =>
        rw [List.map_append, List.map_cons, List.nodup_append] at distinct
        exact absurd rfl (distinct.2.2 _ repeated _ List.mem_cons_self)
    | refused _ fails =>
        rw [answer_httpConnector] at fails
        rw [faultIn_of_fails fails]
        exact ⟨rfl, rfl, rfl⟩

end Building

/-! ### The order to make the database -/

/-- The order to make the database that the settings name. -/
def databaseRequest (settings : Settings.GatewaySettings) (database : Connection) : Http.Request :=
  { method := .post
    url := fileOf database.base "create_if_not_exist"
    headers := [Http.jsonHeader]
    body := some (.ofMembers
      [("type", .string "sqlite"), ("path", .string settings.databasePath)]) }

/-- The server of the database answers the order for it, after what was sent
before, in time and with success and an empty reply. -/
def OrderMet
    (settings : Settings.GatewaySettings)
    (servers : Servers)
    (before : List SentTo)
    (database : Connection) : Prop :=
  ∃ response,
    Http.AnswersWithin settings.healthTimeout
      (servers databaseService (requestsTo databaseService before))
      (databaseRequest settings database) response ∧
    Http.isSuccess response.status = true ∧
    ∃ value, Connection.reply? response = some value ∧ decodeEmpty value.toDocument = .ok ()

section Order

variable [Url.DomainCoding] {settings : Settings.GatewaySettings} {servers : Servers}
  {services : List (ServiceConfig × Connection)} {config : ServiceConfig} {database : Connection}
  (connected : Connected httpConnector services)
  (member : (config, database) ∈ services)
  (named : config.name = databaseService)
  (used : config.kind = .database)

include connected member named used

theorem orderDatabase_holding (before : List SentTo) :
    orderDatabase settings servers (Pool.holding services) before =
      (Operation.createDatabase settings.databasePath).run (.opened database)
        settings.healthTimeout (servers databaseService (requestsTo databaseService before)) := by
  obtain ⟨place, atPlace⟩ := List.getElem?_of_mem member
  have entry := Pool.entry?_holding connected atPlace
  rw [named, used] at entry
  have found : (Pool.holding services).requireClient databaseService .database = .ok place := by
    unfold Pool.requireClient
    rw [Pool.client?_eq_some_iff.mpr ⟨_, entry, rfl, rfl⟩]
  unfold orderDatabase
  simp only [found, Pool.held?_holding atPlace]

theorem orderDatabase_spec (before : List SentTo) :
    (orderDatabase settings servers (Pool.holding services) before).sent =
        [databaseRequest settings database] ∧
      ((orderDatabase settings servers (Pool.holding services) before).result = .ok () ↔
        OrderMet settings servers before database) := by
  have connects := connected.connects member
  have known : "create_if_not_exist" ∈ servicePaths := by decide
  rw [orderDatabase_holding connected member named used]
  exact ⟨sent_run connects _ _ _ known, run_result_eq_ok_iff connects _ _ _ known⟩

end Order

/-! ### A run over open connections -/

/-- How a gateway starts up over the connections of its services: its probes,
and the order for the database, if it comes to that when the wait has ended. -/
structure StartsUp
    (settings : Settings.GatewaySettings)
    (servers : Servers)
    (services : List (String × Connection))
    (database : Connection)
    (verdict : Verdict)
    (run : GatewayRun)
    (probes orders : List SentTo) : Prop where
  sent : run.sent = probes ++ orders
  probing : ∀ each ∈ probes, ∃ service ∈ services,
    each.service = service.1 ∧ each.sent.request = probeOf service.2 ∧
      each.sent.moment ≤ verdict.elapsed
  oneOrder : orders = [] ∨
    orders = [⟨databaseService, ⟨verdict.elapsed, databaseRequest settings database⟩⟩]
  reported : orders ≠ [] → ∀ service ∈ services,
    HasReported servers settings.healthTimeout probes service.1 service.2 verdict.elapsed
  ordered : orders ≠ [] ↔ verdict.result = .ok ()
  ready : run.ready = true ↔ orders ≠ [] ∧ OrderMet settings servers probes database
  closed : run.pool.opened = services.map fun service => { connection := service.2, closings := 1 }

/-- The names of services, each with its connection. -/
def byName (services : List (ServiceConfig × Connection)) : List (String × Connection) :=
  services.map fun service => (service.1.name, service.2)

theorem closings_letGo {services : List (ServiceConfig × Connection)} :
    ∀ held ∈ (Pool.letGo services).opened, held.closings = 1 := by
  intro held member
  obtain ⟨service, -, rfl⟩ := List.mem_map.mp member
  rfl

theorem opened_letGo {services : List (ServiceConfig × Connection)} :
    (Pool.letGo services).opened =
      (byName services).map fun service => { connection := service.2, closings := 1 } := by
  rw [byName, List.map_map]
  rfl

section Connected

variable [Url.DomainCoding] {settings : Settings.GatewaySettings} {servers : Servers}
  {began : ClockReading}

theorem probed_eq (pool : Pool Connection) :
    inOrder (List.zipWith (fun found wait =>
        sentByProbes settings servers found.1 found.2 wait.starts) pool.connections
      ((Gate.ofInterval settings.healthInterval).waits settings.healthTimeout
        (pool.watched Connection.name (gatewayScript settings servers)) began)).flatten =
      probesOf settings servers began pool := by
  unfold Gate.waits Pool.watched
  rw [List.map_map, List.zipWith_map_right, List.zipWith_self]
  rfl

theorem runConnected_of_failed
    {pool : Pool Connection}
    {error : Error}
    (failed : (verdictOn settings servers began pool).result = .error error) :
    ∃ elapsed, runConnected settings servers pool began =
      { report := .failed (banner settings)
          (failureTextIn "services did not become healthy" error.message)
        sent := probesOf settings servers began pool
        pool := pool.close
        ready := false
        elapsed } := by
  unfold verdictOn gateOf watchedIn at failed
  refine ⟨(verdictOn settings servers began pool).elapsed, ?_⟩
  unfold runConnected
  simp only [failed]
  rw [probed_eq]
  rfl

theorem runConnected_of_passed
    {pool : Pool Connection}
    (passed : (verdictOn settings servers began pool).result = .ok ()) :
    let use := orderDatabase settings servers pool (probesOf settings servers began pool)
    let run := runConnected settings servers pool began
    run.sent = probesOf settings servers began pool ++ use.sent.map (fun request =>
        { service := databaseService
          sent := { moment := (verdictOn settings servers began pool).elapsed, request } }) ∧
      run.pool = pool.close ∧
      (run.ready = true ↔ use.result = .ok ()) ∧
      (run.ready = true → run.report = .succeeded "" (banner settings ++ readyText)) ∧
      (run.ready = false → ∃ failure, run.report =
        .failed (banner settings) (failureText failure)) := by
  unfold verdictOn gateOf watchedIn at passed
  unfold runConnected
  simp only [passed]
  rw [probed_eq]
  cases (orderDatabase settings servers pool (probesOf settings servers began pool)).result with
  | error failure => exact ⟨rfl, rfl, by simp, nofun, fun _ => ⟨_, rfl⟩⟩
  | ok nothing => exact ⟨rfl, rfl, by simp, fun _ => rfl, nofun⟩

/-- How the run of a gateway with given diagnostics is reported. -/
structure Reported (diagnostics : String) (run : GatewayRun) : Prop where
  ready : run.ready = true → run.report = .succeeded "" (diagnostics ++ readyText)
  failed : run.ready = false →
    ∃ failure, run.report = .failed diagnostics (failureText failure)
  closed : ∀ held ∈ run.pool.opened, held.closings = 1

variable {services : List (ServiceConfig × Connection)}

variable (settings servers began) {config : ServiceConfig} {database : Connection}
  (connected : Connected httpConnector services)

include connected

theorem probing_holding :
    ∀ each ∈ probesOf settings servers began (Pool.holding services), ∃ service ∈ byName services,
      each.service = service.1 ∧ each.sent.request = probeOf service.2 ∧
        each.sent.moment ≤ (verdictOn settings servers began (Pool.holding services)).elapsed := by
  intro each member
  obtain ⟨config, connection, inServices, named, request, early⟩ :=
    mem_probesOf _ _ _ connected member
  exact ⟨_, List.mem_map_of_mem inServices, named, request, early⟩

theorem hasReported_holding
    (passed : (verdictOn settings servers began (Pool.holding services)).result = .ok ()) :
    ∀ service ∈ byName services,
      HasReported servers settings.healthTimeout
        (probesOf settings servers began (Pool.holding services)) service.1 service.2
        (verdictOn settings servers began (Pool.holding services)).elapsed := by
  intro service member
  obtain ⟨⟨config, connection⟩, inServices, rfl⟩ := List.mem_map.mp member
  have inPool : (config.name, Held.opened connection) ∈ (Pool.holding services).connections :=
    (Pool.mem_connections_holding_iff connected).mpr ⟨config, connection, inServices, rfl, rfl⟩
  exact hasReported_of_serves _ _ _ connected inServices
    (Gate.await_ok_iff.mp passed _ (List.mem_map.mpr ⟨_, inPool, rfl⟩))

/-- A gateway over open connections starts up as it should, whatever comes of it. -/
theorem startsUp_runConnected
    (member : (config, database) ∈ services)
    (isDatabase : config.name = databaseService)
    (used : config.kind = .database) :
    (∃ probes orders,
      StartsUp settings servers (byName services) database
        (verdictOn settings servers began (Pool.holding services))
        (runConnected settings servers (Pool.holding services) began) probes orders) ∧
      Reported (banner settings) (runConnected settings servers (Pool.holding services) began) := by
  cases result : (verdictOn settings servers began (Pool.holding services)).result with
  | error error =>
      obtain ⟨elapsed, runs⟩ := runConnected_of_failed result
      rw [Pool.close_holding] at runs
      rw [runs]
      refine ⟨⟨probesOf settings servers began (Pool.holding services), [], ?_⟩,
        nofun, fun _ => ⟨_, rfl⟩, closings_letGo⟩
      exact
        { sent := (List.append_nil _).symm
          probing := probing_holding settings servers began connected
          oneOrder := .inl rfl
          reported := fun ordered => absurd rfl ordered
          ordered := by simp [result]
          ready := by simp
          closed := opened_letGo }
  | ok nothing =>
      obtain ⟨sent, pool, ready, succeeded, failed⟩ := runConnected_of_passed result
      obtain ⟨ordered, met⟩ := orderDatabase_spec connected member isDatabase used
        (probesOf settings servers began (Pool.holding services))
      rw [Pool.close_holding] at pool
      rw [ordered] at sent
      refine ⟨⟨probesOf settings servers began (Pool.holding services),
          [⟨databaseService, ⟨(verdictOn settings servers began (Pool.holding services)).elapsed,
            databaseRequest settings database⟩⟩], ?_⟩,
        succeeded, failed, by rw [pool]; exact closings_letGo⟩
      exact
        { sent
          probing := probing_holding settings servers began connected
          oneOrder := .inr rfl
          reported := fun _ => hasReported_holding settings servers began connected result
          ordered := by simp [result]
          ready := by rw [ready, met]; simp
          closed := by rw [pool]; exact opened_letGo }

end Connected

/-! ### The whole run -/

theorem exists_of_map_fst
    {α β : Type}
    {pairs : List (α × β)}
    {first second third : α}
    (firsts : pairs.map Prod.fst = [first, second, third]) :
    ∃ x y z, pairs = [(first, x), (second, y), (third, z)] := by
  obtain ⟨⟨_, x⟩, others, rfl, rfl, areOthers⟩ := List.map_eq_cons_iff.mp firsts
  obtain ⟨⟨_, y⟩, last, rfl, rfl, isLast⟩ := List.map_eq_cons_iff.mp areOthers
  obtain ⟨⟨_, z⟩, rest, rfl, rfl, noRest⟩ := List.map_eq_cons_iff.mp isLast
  obtain rfl := List.map_eq_nil_iff.mp noRest
  exact ⟨x, y, z, rfl⟩

/-- What a gateway writes before it fails: nothing, unless its settings are read. -/
def bannerOf (environment : Settings.Environment) : String :=
  match Settings.GatewaySettings.ofEnvironment environment with
  | .ok settings => banner settings
  | .error _ => ""

/-- How the run of a gateway ends for a fault that is found before anything is sent. -/
structure Refused (diagnostics fault : String) (run : GatewayRun) : Prop where
  sent : run.sent = []
  ready : run.ready = false
  report : run.report = .failed diagnostics (failureText fault)

/-- A gateway starts up from an environment: its settings are read, its three
services are connected at the addresses set for them, and it starts up over
these connections. -/
def StartsFrom
    [Url.DomainCoding]
    (environment : Settings.Environment)
    (servers : Servers)
    (began : ClockReading)
    (run : GatewayRun) : Prop :=
  ∃ settings llm todo database probes orders,
    Settings.GatewaySettings.ofEnvironment environment = .ok settings ∧
    Settings.filledText? environment "INBOX_TODO_DATABASE_PATH" = some settings.databasePath ∧
    Connection.connect "llm" (textOr environment "INBOX_TODO_LLM_ADDR" ":50051") = .ok llm ∧
    Connection.connect "todo" (textOr environment "INBOX_TODO_TODO_ADDR" ":50052") = .ok todo ∧
    Connection.connect "database" (textOr environment "INBOX_TODO_DATABASE_ADDR" ":50053") =
      .ok database ∧
    StartsUp settings servers [("llm", llm), ("todo", todo), ("database", database)] database
      (verdictOn settings servers began (Pool.build httpConnector (serviceConfigs settings)).pool)
      run probes orders

theorem serviceConfigs_eq
    {environment : Settings.Environment}
    {settings : Settings.GatewaySettings}
    (isRead : Settings.GatewaySettings.ofEnvironment environment = .ok settings) :
    serviceConfigs settings =
      [⟨"llm", textOr environment "INBOX_TODO_LLM_ADDR" ":50051", .summary⟩,
        ⟨"todo", textOr environment "INBOX_TODO_TODO_ADDR" ":50052", .todo⟩,
        ⟨"database", textOr environment "INBOX_TODO_DATABASE_ADDR" ":50053", .database⟩] := by
  have fields := Settings.GatewaySettings.ofEnvironment_eq_ok_iff.mp isRead
  rw [← fields.summaryAddress, ← fields.todoAddress, ← fields.databaseAddress]
  rfl

section Gateway

variable [Url.DomainCoding] {environment : Settings.Environment} {servers : Servers}
  {began : ClockReading}

theorem gateway_of_settingsFault
    {fault : Settings.Fault}
    (refused : Settings.GatewaySettings.ofEnvironment environment = .error fault) :
    gateway environment servers began =
      { report := .failed "" (failureText fault.message)
        sent := []
        pool := .empty
        ready := false
        elapsed := 0 } := by
  unfold gateway
  rw [refused]

variable {settings : Settings.GatewaySettings}
  (isRead : Settings.GatewaySettings.ofEnvironment environment = .ok settings)

include isRead

theorem gateway_of_addressFault
    {error : Error}
    (failure : (Pool.build httpConnector (serviceConfigs settings)).failure = some error) :
    gateway environment servers began =
      { report := .failed (banner settings) (failureText error.message)
        sent := []
        pool := (Pool.build httpConnector (serviceConfigs settings)).pool
        ready := false
        elapsed := 0 } := by
  unfold gateway
  simp only [isRead, failure]

theorem gateway_of_built
    (built : (Pool.build httpConnector (serviceConfigs settings)).failure = none) :
    gateway environment servers began =
      runConnected settings servers
        (Pool.build httpConnector (serviceConfigs settings)).pool began := by
  unfold gateway
  simp only [isRead, built]

theorem addressFaults_eq : addressFaults environment = (serviceConfigs settings).map faultIn := by
  rw [serviceConfigs_eq isRead]
  rfl

theorem firstFault?_of_read :
    firstFault? environment = (serviceConfigs settings).findSome? faultIn := by
  rw [firstFault?, List.findSome?_append, findSome?_settingsFaults, isRead,
    addressFaults_eq isRead, List.findSome?_map, Function.id_comp]
  exact Option.none_or

theorem startsFrom_of_connected
    {services : List (ServiceConfig × Connection)}
    (connected : Connected httpConnector services)
    (isAll : services.map Prod.fst = serviceConfigs settings) :
    Reported (banner settings) (gateway environment servers began) ∧
      StartsFrom environment servers began (gateway environment servers began) := by
  have built := Pool.build_connected connected
  rw [isAll] at built
  have noFailure : (Pool.build httpConnector (serviceConfigs settings)).failure = none := by
    rw [built]
  have pool : (Pool.build httpConnector (serviceConfigs settings)).pool =
      Pool.holding services := by
    rw [built]
  obtain ⟨llm, todo, database, services_eq⟩ :=
    exists_of_map_fst (isAll.trans (serviceConfigs_eq isRead))
  have llmMember : (⟨"llm", textOr environment "INBOX_TODO_LLM_ADDR" ":50051", .summary⟩, llm) ∈
      services := by
    simp [services_eq]
  have todoMember : (⟨"todo", textOr environment "INBOX_TODO_TODO_ADDR" ":50052", .todo⟩, todo) ∈
      services := by
    simp [services_eq]
  have databaseMember :
      (⟨"database", textOr environment "INBOX_TODO_DATABASE_ADDR" ":50053", .database⟩, database) ∈
        services := by
    simp [services_eq]
  have llmConnects := connected.connects llmMember
  have todoConnects := connected.connects todoMember
  have databaseConnects := connected.connects databaseMember
  have allByName : byName services = [("llm", llm), ("todo", todo), ("database", database)] := by
    rw [byName, services_eq]
    rfl
  obtain ⟨⟨probes, orders, startsUp⟩, reported⟩ :=
    startsUp_runConnected settings servers began connected databaseMember rfl rfl
  rw [← pool] at startsUp reported
  rw [allByName] at startsUp
  have fields := Settings.GatewaySettings.ofEnvironment_eq_ok_iff.mp isRead
  rw [gateway_of_built isRead noFailure]
  refine ⟨reported, settings, llm, todo, database, probes, orders, isRead,
    Settings.filledText?_eq_some_iff.mpr fields.databasePath, llmConnects, todoConnects,
    databaseConnects, startsUp⟩

end Gateway

/-- The start of a gateway, in order: the first fault ends it before anything is
sent. Without a fault it sends probes, and then the one order to make the
database exactly if the wait for the services succeeds. It is ready exactly if
the order is met, and leaves no connection open. -/
theorem gateway_starts_up
    [Url.DomainCoding]
    (environment : Settings.Environment)
    (servers : Servers)
    (began : ClockReading) :
    Reported (bannerOf environment) (gateway environment servers began) ∧
    (∀ fault, firstFault? environment = some fault →
      Refused (bannerOf environment) fault (gateway environment servers began)) ∧
    (firstFault? environment = none →
      StartsFrom environment servers began (gateway environment servers began)) := by
  cases isRead : Settings.GatewaySettings.ofEnvironment environment with
  | error fault =>
      have first : firstFault? environment = some fault.message := by
        rw [firstFault?, List.findSome?_append, findSome?_settingsFaults, isRead]
        rfl
      have noBanner : bannerOf environment = "" := by rw [bannerOf, isRead]
      rw [gateway_of_settingsFault isRead, first, noBanner]
      refine ⟨⟨nofun, fun _ => ⟨_, rfl⟩, List.forall_mem_nil _⟩, ?_, nofun⟩
      rintro _ ⟨rfl⟩
      exact ⟨rfl, rfl, rfl⟩
  | ok settings =>
      have written : bannerOf environment = banner settings := by rw [bannerOf, isRead]
      have distinct : ((serviceConfigs settings).map ServiceConfig.name).Nodup := by
        show ["llm", "todo", "database"].Nodup
        decide
      rw [written, firstFault?_of_read isRead]
      rcases build_of_distinct distinct with
        ⟨services, connected, isAll⟩ | ⟨services, error, pool, failure, fault⟩
      · obtain ⟨reported, starts⟩ := startsFrom_of_connected isRead connected isAll
        rw [← isAll, findSome?_faultIn_of_connected connected]
        exact ⟨reported, nofun, fun _ => starts⟩
      · rw [gateway_of_addressFault isRead failure, pool, fault]
        refine ⟨⟨nofun, fun _ => ⟨_, rfl⟩, closings_letGo⟩, ?_, nofun⟩
        rintro _ ⟨rfl⟩
        exact ⟨rfl, rfl, rfl⟩

end Precis.Command

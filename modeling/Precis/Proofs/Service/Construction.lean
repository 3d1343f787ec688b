import Mathlib.Data.List.Induction
import Precis.Proofs.Service.Pool

/-!
Contract: all or nothing.

Owns what a pool looks like while it is built, what the closing of a pool does
to the connections that it still holds, and the two ways in which the building
of a pool ends: with a connection for every service, or with the first obstacle
and every connection closed again that had been opened before it.

Does not own what is done with a pool once it is built.
-/

namespace Precis.Service

variable {κ : Type}

/-- What a connector is asked for a service. -/
def ServiceConfig.question (config : ServiceConfig) : String × String :=
  (config.name, config.address)

/-- The answer of a connector to a service, after it was asked for others. -/
def Connector.answer
    (connector : Connector κ)
    (earlier : List ServiceConfig)
    (config : ServiceConfig) : Except Error κ :=
  connector (earlier.map ServiceConfig.question) config.name config.address

/-- No two services have one name, and each can be connected after those before it. -/
structure Connectable (connector : Connector κ) (configs : List ServiceConfig) : Prop where
  distinct : (configs.map ServiceConfig.name).Nodup
  connects : ∀ earlier config, earlier ++ [config] <+: configs →
    ∃ connection, connector.answer earlier config = .ok connection

/-- What keeps a service from being connected after others: the connector was
asked for these in all, and this is the failure. -/
inductive Obstacle
    (connector : Connector κ)
    (earlier : List ServiceConfig)
    (config : ServiceConfig) : List (String × String) → Error → Prop
  | taken
      (repeated : config.name ∈ earlier.map ServiceConfig.name) :
      Obstacle connector earlier config
        (earlier.map ServiceConfig.question)
        (.connectFailed config.name config.address "duplicate service name")
  | refused
      {error : Error}
      (free : config.name ∉ earlier.map ServiceConfig.name)
      (fails : connector.answer earlier config = .error error) :
      Obstacle connector earlier config
        ((earlier ++ [config]).map ServiceConfig.question)
        error

theorem Connectable.no_obstacle
    {connector : Connector κ}
    {earlier later : List ServiceConfig}
    {config : ServiceConfig}
    {asked : List (String × String)}
    {error : Error}
    (connectable : Connectable connector (earlier ++ config :: later)) :
    ¬ Obstacle connector earlier config asked error := by
  intro obstacle
  cases obstacle with
  | taken repeated =>
      have distinct := connectable.distinct
      rw [List.map_append, List.map_cons, List.nodup_append] at distinct
      exact distinct.2.2 _ repeated _ List.mem_cons_self rfl
  | refused _ fails =>
      obtain ⟨connection, answered⟩ := connectable.connects earlier config ⟨later, by simp⟩
      rw [fails] at answered
      cases answered

/-! ### Services beside their connections -/

/-- Services that a connector has connected one after the other, each beside its
connection. -/
inductive Connected (connector : Connector κ) : List (ServiceConfig × κ) → Prop
  | nil : Connected connector []
  | snoc
      {services : List (ServiceConfig × κ)}
      {config : ServiceConfig}
      {connection : κ}
      (before : Connected connector services)
      (free : config.name ∉ (services.map Prod.fst).map ServiceConfig.name)
      (answered : connector.answer (services.map Prod.fst) config = .ok connection) :
      Connected connector (services ++ [(config, connection)])

namespace Connected

variable {connector : Connector κ} {services : List (ServiceConfig × κ)}

theorem distinct (connected : Connected connector services) :
    ((services.map Prod.fst).map ServiceConfig.name).Nodup := by
  induction connected with
  | nil => exact List.nodup_nil
  | snoc _ free _ inductionHypothesis =>
      have distinct := List.Nodup.concat free inductionHypothesis
      rw [List.concat_eq_append] at distinct
      rw [List.map_append, List.map_append]
      exact distinct

/-- Each service is beside the answer to it. -/
theorem answer_eq
    (connected : Connected connector services)
    {earlier : List ServiceConfig}
    {config : ServiceConfig}
    (within : earlier ++ [config] <+: services.map Prod.fst) :
    ∃ connection,
      services[earlier.length]? = some (config, connection) ∧
      connector.answer earlier config = .ok connection := by
  induction connected with
  | nil => simp at within
  | @snoc services last connection before free answered inductionHypothesis =>
      rw [List.map_append, List.map_singleton, List.prefix_concat_iff] at within
      cases within with
      | inl whole =>
          obtain ⟨rfl, same⟩ := List.append_inj' whole rfl
          obtain rfl : config = last := List.singleton_inj.mp same
          exact ⟨connection, by simp, answered⟩
      | inr earlierOnes =>
          obtain ⟨found, atPlace, answeredThen⟩ := inductionHypothesis earlierOnes
          refine ⟨found, ?_, answeredThen⟩
          rw [List.getElem?_append_left (List.getElem?_eq_some_iff.mp atPlace).1]
          exact atPlace

theorem exists_answer
    (connected : Connected connector services)
    {service : ServiceConfig × κ}
    (member : service ∈ services) :
    ∃ earlier, connector.answer earlier service.1 = .ok service.2 := by
  induction connected with
  | nil => cases member
  | snoc _ _ answered inductionHypothesis =>
      rcases List.mem_append.mp member with before | last
      · exact inductionHypothesis before
      · rw [List.mem_singleton.mp last]
        exact ⟨_, answered⟩

theorem connectable (connected : Connected connector services) :
    Connectable connector (services.map Prod.fst) where
  distinct := connected.distinct
  connects earlier config within := by
    obtain ⟨connection, _, answered⟩ := connected.answer_eq within
    exact ⟨connection, answered⟩

end Connected

/-- Either every service is connected, or there is a first obstacle. -/
theorem connected_or_obstacle (connector : Connector κ) (configs : List ServiceConfig) :
    (∃ services, Connected connector services ∧ services.map Prod.fst = configs) ∨
      ∃ services config later asked error,
        Connected connector services ∧
        configs = services.map Prod.fst ++ config :: later ∧
        Obstacle connector (services.map Prod.fst) config asked error := by
  induction configs using List.reverseRecOn with
  | nil => exact .inl ⟨[], .nil, rfl⟩
  | append_singleton configs config inductionHypothesis =>
      rcases inductionHypothesis with
        ⟨services, connected, rfl⟩ |
          ⟨services, first, later, asked, error, connected, rfl, obstacle⟩
      · by_cases repeated : config.name ∈ (services.map Prod.fst).map ServiceConfig.name
        · exact .inr ⟨services, config, [], _, _, connected, rfl, .taken repeated⟩
        · cases answered : connector.answer (services.map Prod.fst) config with
          | error error =>
              exact .inr
                ⟨services, config, [], _, error, connected, rfl, .refused repeated answered⟩
          | ok connection =>
              exact .inl ⟨services ++ [(config, connection)],
                connected.snoc repeated answered, by simp⟩
      · exact .inr ⟨services, first, later ++ [config], asked, error, connected, by simp, obstacle⟩

namespace Pool

/-! ### Closing -/

theorem foldl_closeHandle_getElem?
    {entries : List PoolEntry}
    (distinct : (entries.map PoolEntry.handle).Nodup)
    (pool : Pool κ)
    (place : Nat) :
    (entries.foldl (fun state entry => state.closeHandle entry.handle) pool).opened[place]? =
      if place ∈ entries.map PoolEntry.handle then pool.opened[place]?.map Held.close
      else pool.opened[place]? := by
  -- Closing one place leaves all others alone, and the rest never comes back to it.
  induction entries generalizing pool with
  | nil => simp
  | cons entry rest inductionHypothesis =>
      obtain ⟨fresh, restDistinct⟩ := List.nodup_cons.mp distinct
      rw [List.foldl_cons, inductionHypothesis restDistinct]
      simp only [closeHandle, List.getElem?_modify, List.map_cons, List.mem_cons]
      by_cases here : entry.handle = place
      · subst here
        simp [fresh]
      · have elsewhere : ¬ place = entry.handle := fun same => here same.symm
        simp [here, elsewhere]

/-- A pool that has every connection under one name closes each of them once. -/
theorem opened_close
    {pool : Pool κ}
    (tracked : pool.entries.map PoolEntry.handle = List.range pool.opened.length) :
    pool.close.opened = pool.opened.map Held.close := by
  apply List.ext_getElem?
  intro place
  have distinct : (pool.entries.map PoolEntry.handle).Nodup := tracked ▸ List.nodup_range
  have closed := foldl_closeHandle_getElem? distinct pool place
  rw [tracked] at closed
  simp only [close, closed, List.getElem?_map, List.mem_range]
  split
  case isTrue => rfl
  case isFalse outside =>
    rw [List.getElem?_eq_none (Nat.not_lt.mp outside)]
    rfl

/-! ### The pool of connected services -/

/-- The pool that holds services, each beside its connection. -/
def holding (services : List (ServiceConfig × κ)) : Pool κ :=
  { opened := services.map fun service => Held.opened service.2
    entries := services.mapIdx fun place service =>
      { name := service.1.name, handle := place, kind := service.1.kind } }

/-- What is left of the pool of services once it is closed. -/
def letGo (services : List (ServiceConfig × κ)) : Pool κ :=
  { opened := services.map fun service => (Held.opened service.2).close
    entries := [] }

variable (services : List (ServiceConfig × κ))

theorem map_name_holding :
    (holding services).entries.map PoolEntry.name =
      (services.map Prod.fst).map ServiceConfig.name := by
  apply List.ext_getElem?
  intro place
  simp [holding, Function.comp_def]

theorem map_handle_holding :
    (holding services).entries.map PoolEntry.handle =
      List.range (holding services).opened.length := by
  apply List.ext_getElem
  · simp [holding]
  · intro place _ _
    simp [holding]

theorem close_holding : (holding services).close = letGo services := by
  have opened := opened_close (map_handle_holding services)
  rw [holding, List.map_map] at opened
  exact congrArg (Pool.mk · []) opened

theorem add_holding (config : ServiceConfig) (connection : κ) :
    (holding services).add config connection = holding (services ++ [(config, connection)]) := by
  simp [holding, add, List.mapIdx_append]

/-! ### Building -/

section Step

variable {connector : Connector κ} {pool : Pool κ} {asked : List (String × String)}
  {config : ServiceConfig} {rest : List ServiceConfig}

theorem buildFrom_of_taken (used : config.name ∈ pool.entries.map PoolEntry.name) :
    buildFrom connector pool asked (config :: rest) =
      { pool := pool.close, asked, failure := some (duplicateName config) } := by
  rw [buildFrom, if_pos (entry?_isSome_iff.mpr used)]

theorem buildFrom_of_refused
    {error : Error}
    (unused : config.name ∉ pool.entries.map PoolEntry.name)
    (fails : connector asked config.name config.address = .error error) :
    buildFrom connector pool asked (config :: rest) =
      { pool := pool.close, asked := asked ++ [config.question], failure := some error } := by
  rw [buildFrom, if_neg (mt entry?_isSome_iff.mp unused), fails]
  rfl

theorem buildFrom_of_answered
    {connection : κ}
    (unused : config.name ∉ pool.entries.map PoolEntry.name)
    (answered : connector asked config.name config.address = .ok connection) :
    buildFrom connector pool asked (config :: rest) =
      buildFrom connector (pool.add config connection) (asked ++ [config.question]) rest := by
  rw [buildFrom, if_neg (mt entry?_isSome_iff.mp unused), answered]
  rfl

end Step

variable {services} {connector : Connector κ}

/-- Services that can be connected are, before all that come after them. -/
theorem build_append (connected : Connected connector services) (rest : List ServiceConfig) :
    build connector (services.map Prod.fst ++ rest) =
      buildFrom connector (holding services)
        ((services.map Prod.fst).map ServiceConfig.question) rest := by
  induction connected generalizing rest with
  | nil => rfl
  | @snoc services config connection _ free answered inductionHypothesis =>
      rw [← map_name_holding] at free
      rw [List.map_append, List.append_assoc, inductionHypothesis, List.map_singleton,
        List.singleton_append, buildFrom_of_answered free answered, add_holding,
        List.map_append, List.map_singleton]

theorem build_connected (connected : Connected connector services) :
    build connector (services.map Prod.fst) =
      { pool := holding services
        asked := (services.map Prod.fst).map ServiceConfig.question
        failure := none } := by
  simpa [buildFrom] using build_append connected []

theorem build_obstacle
    {config : ServiceConfig}
    {asked : List (String × String)}
    {error : Error}
    (connected : Connected connector services)
    (obstacle : Obstacle connector (services.map Prod.fst) config asked error)
    (later : List ServiceConfig) :
    build connector (services.map Prod.fst ++ config :: later) =
      { pool := letGo services, asked, failure := some error } := by
  rw [build_append connected, ← close_holding]
  cases obstacle with
  | taken repeated =>
      rw [← map_name_holding] at repeated
      exact buildFrom_of_taken repeated
  | refused free fails =>
      rw [← map_name_holding] at free
      rw [buildFrom_of_refused free fails, List.map_append, List.map_singleton]

/-- A pool that was built holds its services. -/
theorem exists_connected_of_built
    {configs : List ServiceConfig}
    (built : (build connector configs).failure = none) :
    ∃ services, Connected connector services ∧ services.map Prod.fst = configs ∧
      (build connector configs).pool = holding services := by
  rcases connected_or_obstacle connector configs with
    ⟨services, connected, rfl⟩ | ⟨services, config, later, asked, error, connected, rfl, obstacle⟩
  · exact ⟨services, connected, rfl, by rw [build_connected connected]⟩
  · rw [build_obstacle connected obstacle] at built
    cases built

theorem wellFormed_holding (connected : Connected connector services) :
    (holding services).WellFormed := by
  have built := WellFormed.build connector (services.map Prod.fst)
  rw [build_connected connected] at built
  exact built

theorem entry?_holding
    (connected : Connected connector services)
    {config : ServiceConfig}
    {connection : κ}
    {place : Nat}
    (found : services[place]? = some (config, connection)) :
    entry? (holding services) config.name =
      some { name := config.name, handle := place, kind := config.kind } := by
  refine (wellFormed_holding connected).entry?_eq_some_iff.mpr ⟨?_, rfl⟩
  apply List.mem_of_getElem? (i := place)
  simp [holding, found]

theorem exists_of_mem_holding
    {entry : PoolEntry}
    (member : entry ∈ (holding services).entries) :
    ∃ config connection,
      services[entry.handle]? = some (config, connection) ∧
      config.name = entry.name ∧
      config.kind = entry.kind := by
  obtain ⟨place, within, rfl⟩ := List.mem_mapIdx.mp member
  exact ⟨services[place].1, services[place].2, List.getElem?_eq_getElem within, rfl, rfl⟩

theorem held?_holding
    {config : ServiceConfig}
    {connection : κ}
    {place : Nat}
    (found : services[place]? = some (config, connection)) :
    (holding services).held? place = some (Held.opened connection) := by
  simp [holding, held?, found]

/-- The snapshot of a pool lists its services, each with its connection, which is open. -/
theorem mem_connections_holding_iff
    (connected : Connected connector services)
    {name : String}
    {held : Held κ} :
    (name, held) ∈ (holding services).connections ↔
      ∃ config connection,
        (config, connection) ∈ services ∧ config.name = name ∧ held = .opened connection := by
  rw [(wellFormed_holding connected).mem_connections_iff]
  constructor
  · intro found
    obtain ⟨handle, handleFound, heldFound⟩ := Option.bind_eq_some_iff.mp found
    obtain ⟨entry, entryFound, rfl⟩ := Option.map_eq_some_iff.mp handleFound
    obtain ⟨member, rfl⟩ := mem_of_entry?_eq_some entryFound
    obtain ⟨config, connection, atPlace, sameName, -⟩ := exists_of_mem_holding member
    rw [held?_holding atPlace] at heldFound
    exact ⟨config, connection, List.mem_of_getElem? atPlace, sameName,
      (Option.some.inj heldFound).symm⟩
  · rintro ⟨config, connection, member, rfl, rfl⟩
    obtain ⟨place, atPlace⟩ := List.getElem?_of_mem member
    rw [connection?, handle?, entry?_holding connected atPlace]
    exact held?_holding atPlace

theorem perm_names_holding :
    (holding services).names.Perm ((services.map Prod.fst).map ServiceConfig.name) := by
  rw [← map_name_holding]
  exact (perm_sortedEntries _).map PoolEntry.name

/-! ### All or nothing -/

/-- A pool that was built in full: the connector was asked for every service, and
each has one connection of its own, open and found under its name. -/
structure Built.Complete
    (built : Built κ)
    (connector : Connector κ)
    (configs : List ServiceConfig) : Prop where
  succeeded : built.failure = none
  asked : built.asked = configs.map ServiceConfig.question
  size : built.pool.size = configs.length
  opened : built.pool.opened.length = configs.length
  names : built.pool.names.Perm (configs.map ServiceConfig.name)
  holds : ∀ earlier config, earlier ++ [config] <+: configs →
    ∃ connection,
      connector.answer earlier config = .ok connection ∧
      built.pool.held? earlier.length = some (Held.opened connection) ∧
      built.pool.connection? config.name = some (Held.opened connection) ∧
      built.pool.client? config.name config.kind = some earlier.length

/-- A pool that could not be built: whatever was opened for the services before
the obstacle was closed once, nothing else was opened, and the pool is empty, so
that letting go of it closes nothing again. -/
structure Built.Undone
    (built : Built κ)
    (connector : Connector κ)
    (earlier : List ServiceConfig)
    (asked : List (String × String))
    (error : Error) : Prop where
  failed : built.failure = some error
  asked : built.asked = asked
  opened : built.pool.opened.length = earlier.length
  closed : ∀ before config, before ++ [config] <+: earlier →
    ∃ connection,
      connector.answer before config = .ok connection ∧
      built.pool.held? before.length = some { connection, closings := 1 }
  empty : built.pool.isEmpty = true
  dropped : built.pool.close = built.pool

theorem complete_of_connected (connected : Connected connector services) :
    (build connector (services.map Prod.fst)).Complete connector (services.map Prod.fst) := by
  rw [build_connected connected]
  refine ⟨rfl, rfl, by simp [size, holding], by simp [holding], perm_names_holding, ?_⟩
  intro earlier config within
  obtain ⟨connection, found, answered⟩ := connected.answer_eq within
  have entry := entry?_holding connected found
  have held := held?_holding found
  refine ⟨connection, answered, held, ?_, ?_⟩
  · rw [connection?, handle?, entry]
    exact held
  · rw [client?, entry]
    exact if_pos rfl

theorem undone_of_obstacle
    {config : ServiceConfig}
    {asked : List (String × String)}
    {error : Error}
    (connected : Connected connector services)
    (obstacle : Obstacle connector (services.map Prod.fst) config asked error)
    (later : List ServiceConfig) :
    (build connector (services.map Prod.fst ++ config :: later)).Undone
      connector (services.map Prod.fst) asked error := by
  rw [build_obstacle connected obstacle]
  refine ⟨rfl, rfl, by simp [letGo], ?_, rfl, rfl⟩
  intro before config within
  obtain ⟨connection, found, answered⟩ := connected.answer_eq within
  exact ⟨connection, answered, by simp [letGo, held?, found, Held.opened, Held.close]⟩

/-- A pool is built exactly if no name repeats and every service can be
connected. Otherwise the first obstacle decides the failure, and every
connection from before it is closed, once. -/
theorem build_all_or_nothing (connector : Connector κ) (configs : List ServiceConfig) :
    ((build connector configs).failure = none ↔ Connectable connector configs) ∧
      (Connectable connector configs → (build connector configs).Complete connector configs) ∧
      (¬ Connectable connector configs →
        ∃ earlier config later asked error,
          configs = earlier ++ config :: later ∧
          Connectable connector earlier ∧
          Obstacle connector earlier config asked error ∧
          (build connector configs).Undone connector earlier asked error) := by
  rcases connected_or_obstacle connector configs with
    ⟨services, connected, rfl⟩ | ⟨services, config, later, asked, error, connected, rfl, obstacle⟩
  · have complete := complete_of_connected connected
    exact ⟨iff_of_true complete.succeeded connected.connectable, fun _ => complete,
      absurd connected.connectable⟩
  · have undone := undone_of_obstacle connected obstacle later
    have failed : (build connector (services.map Prod.fst ++ config :: later)).failure ≠ none := by
      rw [undone.failed]
      exact Option.some_ne_none error
    have broken : ¬ Connectable connector (services.map Prod.fst ++ config :: later) :=
      fun connectable => connectable.no_obstacle obstacle
    refine ⟨iff_of_false failed broken, fun connectable => absurd connectable broken, fun _ => ?_⟩
    exact ⟨services.map Prod.fst, config, later, asked, error, rfl, connected.connectable,
      obstacle, undone⟩

end Pool

end Precis.Service

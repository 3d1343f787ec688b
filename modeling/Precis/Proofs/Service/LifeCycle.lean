import Precis.Proofs.Service.Base
import Precis.Proofs.Service.Construction

/-!
Contract: the life of a pool of connections over HTTP.

Owns what can be done with a pool and with the connections that it handed out,
in any order and until the pool is dropped, and what holds throughout: the
lookups agree with each other and with the services while the pool is open, they
find nothing once it was closed, and a connection that was handed out before
then answers nothing and sends nothing, and is never opened again.

Does not own what an open connection sends and answers.
-/

namespace Precis.Service

/-- A connection that was handed out: the name under which it was found, and its
place among all that were opened. -/
structure Handle where
  name : String
  place : Nat
deriving DecidableEq, Repr

/-- The handle of what is found under a name. -/
def PoolEntry.given (entry : PoolEntry) : Handle :=
  { name := entry.name, place := entry.handle }

/-- A pool, what it handed out so far, and the requests that went out over its
connections, newest first. -/
structure Life where
  pool : Pool Connection
  handed : List Handle
  sent : List Http.Request

namespace Life

/-- What is done with a pool and with what it handed out. A connection is used
by its number among all that were handed out. -/
inductive Act where
  | names
  | size
  | isEmpty
  | connections
  | connection (name : String)
  | client (name : String) (kind : ClientKind)
  | requireClient (name : String) (kind : ClientKind)
  | check (number : Nat)
  | call (number : Nat) (method : String) (payload : Json.Value)
  | close

/-- The life of a pool that was just built for services. -/
def start [Url.DomainCoding] (configs : List ServiceConfig) : Life :=
  { pool := (Pool.build httpConnector configs).pool, handed := [], sent := [] }

/-- The connections that a pool hands out. -/
def found (pool : Pool Connection) : Act → List Handle
  | .connections => pool.sortedEntries.map PoolEntry.given
  | .connection name => (pool.handle? name).toList.map (Handle.mk name)
  | .client name kind => (pool.client? name kind).toList.map (Handle.mk name)
  | .requireClient name kind =>
      (pool.requireClient name kind).toOption.toList.map (Handle.mk name)
  | _ => []

/-- The connection that was handed out under a number. -/
def held? (life : Life) (number : Nat) : Option (Held Connection) :=
  life.handed[number]?.bind fun handle => life.pool.held? handle.place

/-- The requests that go out, within a limit of time and to a server. -/
def requests
    [Url.DomainCoding]
    (limit : Duration)
    (server : Http.Server)
    (life : Life) : Act → List Http.Request
  | .check number =>
      (life.held? number).elim [] fun held =>
        (Connection.check held limit (server life.sent)).sent
  | .call number method payload =>
      (life.held? number).elim [] fun held =>
        (Connection.call held limit (server life.sent) method payload).sent
  | _ => []

/-- What becomes of a pool. -/
def poolAfter (pool : Pool Connection) : Act → Pool Connection
  | .close => pool.close
  | _ => pool

/-- What one act does. -/
def step
    [Url.DomainCoding]
    (limit : Duration)
    (server : Http.Server)
    (life : Life)
    (act : Act) : Life :=
  { pool := poolAfter life.pool act
    handed := life.handed ++ found life.pool act
    sent := (life.requests limit server act).reverse ++ life.sent }

/-- What one act after the other does. -/
def run
    [Url.DomainCoding]
    (limit : Duration)
    (server : Http.Server)
    (life : Life)
    (acts : List Act) : Life :=
  acts.foldl (step limit server) life

/-- A pool goes out of scope, and closes what it still holds. -/
def drop (life : Life) : Life :=
  { life with pool := life.pool.close }

variable {limit : Duration} {server : Http.Server} {life : Life}

theorem run_append [Url.DomainCoding] (acts more : List Act) :
    life.run limit server (acts ++ more) = (life.run limit server acts).run limit server more :=
  List.foldl_append

/-! ### One act -/

theorem poolAfter_of_ne {act : Act} (other : act ≠ .close) (pool : Pool Connection) :
    poolAfter pool act = pool := by
  cases act with
  | close => exact absurd rfl other
  | _ => rfl

theorem entries_poolAfter_subset (pool : Pool Connection) (act : Act) :
    (poolAfter pool act).entries ⊆ pool.entries := by
  cases act with
  | close => exact List.nil_subset _
  | _ => exact List.Subset.refl _

theorem given_of_handle?
    {pool : Pool Connection}
    {name : String}
    {place : Nat}
    (found : pool.handle? name = some place) :
    Handle.mk name place ∈ pool.entries.map PoolEntry.given := by
  obtain ⟨entry, entryFound, rfl⟩ := Option.map_eq_some_iff.mp found
  obtain ⟨member, rfl⟩ := Pool.mem_of_entry?_eq_some entryFound
  exact List.mem_map_of_mem member

/-- A pool hands out what it holds, under the name that it holds it under. -/
theorem mem_found
    {pool : Pool Connection}
    {act : Act}
    {handle : Handle}
    (member : handle ∈ found pool act) :
    handle ∈ pool.entries.map PoolEntry.given := by
  cases act with
  | connections =>
      exact (pool.perm_sortedEntries.map PoolEntry.given).mem_iff.mp member
  | connection name =>
      obtain ⟨place, placeFound, rfl⟩ := List.mem_map.mp member
      exact given_of_handle? (Option.mem_toList.mp placeFound)
  | client name kind =>
      obtain ⟨place, placeFound, rfl⟩ := List.mem_map.mp member
      exact given_of_handle? (Pool.handle?_of_client? (Option.mem_toList.mp placeFound))
  | requireClient name kind =>
      rw [found, Pool.toOption_requireClient] at member
      obtain ⟨place, placeFound, rfl⟩ := List.mem_map.mp member
      exact given_of_handle? (Pool.handle?_of_client? (Option.mem_toList.mp placeFound))
  | _ => cases member

end Life

/-! ### Closed connections -/

/-- A connection neither answers nor sends: it names its service as closed. -/
structure Held.Refuses [Url.DomainCoding] (held : Held Connection) (name : String) : Prop where
  check : ∀ limit serve,
    Connection.check held limit serve = .refused (.closed name)
  call : ∀ limit serve method payload,
    Connection.call held limit serve method payload = .refused (.closed name)
  run : ∀ {α : Type} (operation : Operation α) limit serve,
    operation.run held limit serve = .refused (.closed name)

theorem Held.refuses_of_isClosed
    [Url.DomainCoding]
    {held : Held Connection}
    (closed : held.isClosed = true) :
    held.Refuses held.connection.name where
  check limit serve := Connection.send_of_isClosed closed limit serve _ _ _
  call limit serve _ _ := Connection.send_of_isClosed closed limit serve _ _ _
  run operation limit serve := by
    have refused := Connection.send_of_isClosed closed limit serve
      (held.connection.callRequest operation.method operation.payload)
      (held.connection.callFailed operation.method) (held.connection.readReply operation.method)
    rw [Operation.run, Connection.call, refused]
    rfl

/-- A pool holds nothing any more, and everything that it opened is closed. -/
structure Pool.Shut (pool : Pool Connection) : Prop where
  entries : pool.entries = []
  closed : ∀ held ∈ pool.opened, held.isClosed = true

theorem Pool.Shut.close_eq {pool : Pool Connection} (shut : pool.Shut) : pool.close = pool := by
  cases pool with
  | mk opened entries =>
      obtain rfl : entries = [] := shut.entries
      rfl

theorem Pool.shut_letGo {services : List (ServiceConfig × Connection)} :
    (Pool.letGo services).Shut where
  entries := rfl
  closed held member := by
    obtain ⟨service, _, rfl⟩ := List.mem_map.mp member
    rfl

theorem Pool.close_eq_letGo
    {services : List (ServiceConfig × Connection)}
    {pool : Pool Connection}
    (whole : pool = Pool.holding services ∨ pool = Pool.letGo services) :
    pool.close = Pool.letGo services := by
  rcases whole with rfl | rfl
  · exact Pool.close_holding services
  · exact Pool.shut_letGo.close_eq

namespace Life

variable [Url.DomainCoding] {limit : Duration} {server : Http.Server} {life : Life}

theorem refuses_of_held?
    (shut : life.pool.Shut)
    {number : Nat}
    {held : Held Connection}
    (given : life.held? number = some held) :
    held.Refuses held.connection.name := by
  obtain ⟨handle, _, atPlace⟩ := Option.bind_eq_some_iff.mp given
  exact Held.refuses_of_isClosed (shut.closed held (List.mem_of_getElem? atPlace))

theorem requests_of_shut (shut : life.pool.Shut) (act : Act) :
    life.requests limit server act = [] := by
  cases act with
  | check number =>
      rw [requests]
      cases given : life.held? number with
      | none => rfl
      | some held => exact congrArg Use.sent ((refuses_of_held? shut given).check limit _)
  | call number method payload =>
      rw [requests]
      cases given : life.held? number with
      | none => rfl
      | some held => exact congrArg Use.sent ((refuses_of_held? shut given).call limit _ _ _)
  | _ => rfl

/-- Nothing that is done with a closed pool changes anything. -/
theorem step_of_shut (shut : life.pool.Shut) (act : Act) : life.step limit server act = life := by
  have nothingFound : found life.pool act = [] := by
    refine List.eq_nil_iff_forall_not_mem.mpr fun handle member => ?_
    have held := mem_found member
    rw [shut.entries] at held
    cases held
  have samePool : poolAfter life.pool act = life.pool := by
    cases act with
    | close => exact shut.close_eq
    | _ => rfl
  rw [step, nothingFound, samePool, requests_of_shut shut, List.append_nil]
  rfl

theorem run_of_shut (shut : life.pool.Shut) (acts : List Act) :
    life.run limit server acts = life := by
  induction acts with
  | nil => rfl
  | cons act rest inductionHypothesis =>
      rw [run, List.foldl_cons, step_of_shut shut]
      exact inductionHypothesis

/-! ### One act after the other -/

theorem pool_run_of_open {acts : List Act} (unclosed : .close ∉ acts) :
    (life.run limit server acts).pool = life.pool := by
  induction acts generalizing life with
  | nil => rfl
  | cons act rest inductionHypothesis =>
      have other : act ≠ .close := fun same => unclosed (same ▸ List.mem_cons_self)
      have restUnclosed : .close ∉ rest := fun member => unclosed (List.mem_cons_of_mem _ member)
      have same : (life.step limit server act).pool = life.pool :=
        poolAfter_of_ne other life.pool
      rw [← same]
      exact inductionHypothesis restUnclosed

theorem handed_run
    {acts : List Act}
    {handle : Handle}
    (member : handle ∈ (life.run limit server acts).handed) :
    handle ∈ life.handed ∨ handle ∈ life.pool.entries.map PoolEntry.given := by
  induction acts generalizing life with
  | nil => exact .inl member
  | cons act rest inductionHypothesis =>
      have restMember :
          handle ∈ ((life.step limit server act).run limit server rest).handed := member
      rcases inductionHypothesis restMember with earlier | later
      · rcases List.mem_append.mp earlier with before | now
        · exact .inl before
        · exact .inr (mem_found now)
      · exact .inr (List.map_subset _ (entries_poolAfter_subset life.pool act) later)

theorem step_close : life.step limit server .close = life.drop := by
  simp [step, drop, poolAfter, found, requests]

/-! ### The life of a pool that was built -/

section Built

variable {services : List (ServiceConfig × Connection)}

theorem drop_pool_run
    (whole : life.pool = Pool.holding services ∨ life.pool = Pool.letGo services)
    (acts : List Act) :
    (life.run limit server acts).drop.pool = Pool.letGo services := by
  induction acts generalizing life with
  | nil => exact Pool.close_eq_letGo whole
  | cons act rest inductionHypothesis =>
      apply inductionHypothesis
      cases act with
      | close => exact .inr (Pool.close_eq_letGo whole)
      | _ => exact whole

/-- After a pool was closed it is as if it had been dropped, whatever else is done. -/
theorem run_close (whole : life.pool = Pool.holding services) (before later : List Act) :
    life.run limit server (before ++ .close :: later) = (life.run limit server before).drop := by
  have gone : (life.run limit server before).drop.pool = Pool.letGo services :=
    drop_pool_run (.inl whole) before
  have shut : (life.run limit server before).drop.pool.Shut := gone ▸ Pool.shut_letGo
  -- The first closing shuts the pool, and from there on nothing changes.
  rw [run_append, run, List.foldl_cons, step_close]
  exact run_of_shut shut later

end Built

end Life

/-! ### What the lookups say -/

/-- The lookups of an open pool agree with each other and with its services. -/
structure Pool.InService (pool : Pool Connection) (configs : List ServiceConfig) : Prop where
  ascending : pool.names.Pairwise (· < ·)
  names : ∀ name, name ∈ pool.names ↔ name ∈ configs.map ServiceConfig.name
  size : pool.size = pool.names.length
  isEmpty : pool.isEmpty = true ↔ pool.names = []
  listed : pool.connections.map Prod.fst = pool.names
  connections : ∀ name held,
    (name, held) ∈ pool.connections ↔ pool.connection? name = some held
  connection : ∀ name, (pool.connection? name).isSome ↔ name ∈ pool.names
  client : ∀ name kind, (pool.client? name kind).isSome ↔
    ∃ config ∈ configs, config.name = name ∧ config.kind = kind
  clientConnection : ∀ name kind place,
    pool.client? name kind = some place → pool.handle? name = some place
  unclosed : ∀ held ∈ pool.opened, held.closings = 0

/-- The lookups of a closed pool find nothing. -/
structure Pool.OutOfService (pool : Pool Connection) : Prop where
  names : pool.names = []
  size : pool.size = 0
  isEmpty : pool.isEmpty = true
  connections : pool.connections = []
  connection : ∀ name, pool.connection? name = none
  client : ∀ name kind, pool.client? name kind = none
  requireClient : ∀ name kind, pool.requireClient name kind = .error (.notConfigured name)

theorem Pool.Shut.outOfService {pool : Pool Connection} (shut : pool.Shut) :
    pool.OutOfService := by
  cases pool with
  | mk opened entries =>
      obtain rfl : entries = [] := shut.entries
      exact ⟨rfl, rfl, rfl, rfl, fun _ => rfl, fun _ _ => rfl, fun _ _ => rfl⟩

theorem Connection.name_of_connect
    [Url.DomainCoding]
    {name address : String}
    {connection : Connection}
    (connected : Connection.connect name address = .ok connection) :
    connection.name = name := by
  unfold Connection.connect at connected
  split at connected
  case h_1 => cases connected
  case h_2 =>
    rw [← Except.ok.inj connected]

section

variable [Url.DomainCoding] {services : List (ServiceConfig × Connection)}

theorem answer_httpConnector (earlier : List ServiceConfig) (config : ServiceConfig) :
    httpConnector.answer earlier config = Connection.connect config.name config.address :=
  rfl

theorem Connected.connects
    (connected : Connected httpConnector services)
    {config : ServiceConfig}
    {connection : Connection}
    (member : (config, connection) ∈ services) :
    Connection.connect config.name config.address = .ok connection := by
  obtain ⟨earlier, answered⟩ := connected.exists_answer member
  rw [← answer_httpConnector earlier]
  exact answered

theorem Connected.name_eq
    (connected : Connected httpConnector services)
    {config : ServiceConfig}
    {connection : Connection}
    {place : Nat}
    (found : services[place]? = some (config, connection)) :
    connection.name = config.name := by
  obtain ⟨_, answered⟩ := connected.exists_answer (List.mem_of_getElem? found)
  exact Connection.name_of_connect answered

theorem Pool.inService_holding (connected : Connected httpConnector services) :
    (Pool.holding services).InService (services.map Prod.fst) := by
  have wellFormed := Pool.wellFormed_holding connected
  refine ⟨wellFormed.names_ascending, ?_, (Pool.length_names _).symm, Pool.isEmpty_iff,
    wellFormed.map_fst_connections, fun _ _ => wellFormed.mem_connections_iff,
    fun _ => wellFormed.connection?_isSome_iff, ?_, fun _ _ _ => Pool.handle?_of_client?, ?_⟩
  · intro name
    rw [Pool.mem_names_iff, Pool.map_name_holding]
  · intro name kind
    constructor
    · intro present
      obtain ⟨place, found⟩ := Option.isSome_iff_exists.mp present
      obtain ⟨entry, entryFound, rfl, _⟩ := Pool.client?_eq_some_iff.mp found
      obtain ⟨member, rfl⟩ := Pool.mem_of_entry?_eq_some entryFound
      obtain ⟨config, connection, atPlace, sameName, sameKind⟩ := Pool.exists_of_mem_holding member
      exact ⟨config, List.mem_map_of_mem (List.mem_of_getElem? atPlace), sameName, sameKind⟩
    · rintro ⟨config, member, rfl, rfl⟩
      obtain ⟨⟨_, connection⟩, serviceMember, rfl⟩ := List.mem_map.mp member
      obtain ⟨place, atPlace⟩ := List.getElem?_of_mem serviceMember
      have found := Pool.client?_eq_some_iff.mpr
        ⟨_, Pool.entry?_holding connected atPlace, rfl, rfl⟩
      exact Option.isSome_iff_exists.mpr ⟨place, found⟩
  · intro held member
    obtain ⟨service, _, rfl⟩ := List.mem_map.mp member
    rfl

end

namespace Life

/-- A connection that was handed out is closed: it refuses by the name under
which it was found. -/
def Revoked [Url.DomainCoding] (pool : Pool Connection) (handle : Handle) : Prop :=
  ∃ held, pool.held? handle.place = some held ∧ held.Refuses handle.name

theorem revoked_of_handed
    [Url.DomainCoding]
    {services : List (ServiceConfig × Connection)}
    (connected : Connected httpConnector services)
    {handle : Handle}
    (given : handle ∈ (Pool.holding services).entries.map PoolEntry.given) :
    Revoked (Pool.letGo services) handle := by
  obtain ⟨entry, member, rfl⟩ := List.mem_map.mp given
  obtain ⟨config, connection, found, sameName, _⟩ := Pool.exists_of_mem_holding member
  have closed : (Held.opened connection).close.isClosed = true := rfl
  refine ⟨(Held.opened connection).close, ?_, ?_⟩
  · simp [Pool.letGo, Pool.held?, PoolEntry.given, found]
  · have refuses : (Held.opened connection).close.Refuses connection.name :=
      Held.refuses_of_isClosed closed
    rw [connected.name_eq found, sameName] at refuses
    exact refuses

/-- What holds of a pool of connections over HTTP through its whole life. -/
theorem life_cycle
    [Url.DomainCoding]
    {configs : List ServiceConfig}
    (built : (Pool.build httpConnector configs).failure = none)
    (limit : Duration)
    (server : Http.Server)
    (acts : List Act) :
    (.close ∉ acts → ((start configs).run limit server acts).pool.InService configs) ∧
      (∀ before later, acts = before ++ .close :: later →
        ((start configs).run limit server acts).pool.OutOfService ∧
        ((start configs).run limit server acts).sent =
          ((start configs).run limit server before).sent ∧
        ∀ handle ∈ ((start configs).run limit server before).handed,
          Revoked ((start configs).run limit server acts).pool handle) ∧
      (∀ handle ∈ ((start configs).run limit server acts).handed,
        Revoked ((start configs).run limit server acts).drop.pool handle) ∧
      ((start configs).run limit server acts).drop.pool.opened.length = configs.length ∧
      (∀ held ∈ ((start configs).run limit server acts).drop.pool.opened, held.closings = 1) ∧
      (∀ later place held,
        ((start configs).run limit server acts).pool.held? place = some held →
        held.isClosed = true →
        ((start configs).run limit server (acts ++ later)).pool.held? place = some held) := by
  -- Until it is closed the pool is the one that was built, and `dropped` is what
  -- becomes of it at any time; what was handed out leads into either of the two.
  obtain ⟨services, connected, rfl, poolEq⟩ := Pool.exists_connected_of_built built
  have whole : (start (services.map Prod.fst)).pool = Pool.holding services := poolEq
  have inService := Pool.inService_holding connected
  have dropped (done : List Act) :
      ((start (services.map Prod.fst)).run limit server done).drop.pool =
        Pool.letGo services :=
    drop_pool_run (.inl whole) done
  have revoked (done : List Act) (handle : Handle)
      (given : handle ∈ ((start (services.map Prod.fst)).run limit server done).handed) :
      Revoked (Pool.letGo services) handle := by
    rcases handed_run given with earlier | inPool
    · cases earlier
    · exact revoked_of_handed connected (whole ▸ inPool)
  refine ⟨?_, ?_, ?_, ?_, ?_, ?_⟩
  · intro unclosed
    rw [pool_run_of_open unclosed, whole]
    exact inService
  · rintro before later rfl
    rw [run_close whole, dropped]
    exact ⟨Pool.shut_letGo.outOfService, rfl, revoked before⟩
  · rw [dropped]
    exact revoked acts
  · rw [dropped]
    simp [Pool.letGo]
  · rw [dropped]
    intro held member
    obtain ⟨service, _, rfl⟩ := List.mem_map.mp member
    rfl
  · intro later place held atPlace closed
    by_cases once : .close ∈ acts
    · obtain ⟨before, more, rfl⟩ := List.append_of_mem once
      rw [List.append_assoc, List.cons_append, run_close whole]
      rw [run_close whole] at atPlace
      exact atPlace
    · rw [pool_run_of_open once, whole] at atPlace
      have unclosed := inService.unclosed held (List.mem_of_getElem? atPlace)
      rw [Held.isClosed, unclosed] at closed
      cases closed

/-- Two services of one machine. -/
def neighbours : List ServiceConfig :=
  [{ name := "todo", address := ":50052", kind := .todo },
    { name := "llm", address := ":50051", kind := .summary }]

/-- The snapshot of two services is taken before their pool is closed, and used after. -/
theorem life_cycle_of_neighbours :
    (Pool.build httpConnector neighbours).failure = none ∧
      ∀ handle ∈ [Handle.mk "llm" 1, Handle.mk "todo" 0],
        Revoked
          ((start neighbours).run (.ofSeconds 5) (fun _ _ => none)
            [.connections, .check 0, .close, .check 1]).pool
          handle := by
  have built : (Pool.build httpConnector neighbours).failure = none := by
    decide +kernel
  have closed := (life_cycle built (.ofSeconds 5) (fun _ _ => none)
    [.connections, .check 0, .close, .check 1]).2.1 [.connections, .check 0] [.check 1] rfl
  have handed : ((start neighbours).run (.ofSeconds 5) (fun _ _ => none)
      [.connections, .check 0]).handed = [Handle.mk "llm" 1, Handle.mk "todo" 0] := by
    decide +kernel
  exact ⟨built, handed ▸ closed.2.2⟩

end Life

end Precis.Service

import Precis.Service.Connection

/-!
Contract: the pool of connections.

This module owns the building of a pool from a list of services, all or none,
the lookups by name while the pool is open, and its closing. Every connection
that was ever opened stays on record, with how often it was closed, so that a
handle obtained from the pool still means the same connection after the pool
has let go of it. Lookups see the entries only, and closing takes all of them
away at once.
-/

namespace Precis.Service

variable [Url.DomainCoding]

/-- What a pooled connection is used for: one of the services, or anything else
that goes by a name. -/
inductive ClientKind where
  | summary
  | todo
  | database
  | other (type : String)
deriving DecidableEq, Repr

structure ServiceConfig where
  name : String
  address : String
  kind : ClientKind
deriving DecidableEq, Repr

/-- Opens a connection to a named service at an address, or fails. What it does
may depend on what it was asked before, oldest first. -/
abbrev Connector (κ : Type) :=
  (asked : List (String × String)) → (name address : String) → Except Error κ

def httpConnector : Connector Connection :=
  fun _ name address => Connection.connect name address

/-- What a pool finds under a name: a connection, by its place among all that
were opened, and what it is used for. -/
structure PoolEntry where
  name : String
  handle : Nat
  kind : ClientKind
deriving DecidableEq, Repr

/-- A pool: every connection that was opened, and what is found under each name. -/
structure Pool (κ : Type) where
  opened : List (Held κ)
  entries : List PoolEntry

namespace Pool

variable {κ : Type}

def empty : Pool κ :=
  { opened := [], entries := [] }

def entry? (pool : Pool κ) (name : String) : Option PoolEntry :=
  pool.entries.find? fun entry => entry.name = name

def add (pool : Pool κ) (config : ServiceConfig) (connection : κ) : Pool κ :=
  { opened := pool.opened ++ [Held.opened connection]
    entries := pool.entries ++
      [{ name := config.name, handle := pool.opened.length, kind := config.kind }] }

def closeHandle (pool : Pool κ) (handle : Nat) : Pool κ :=
  { pool with opened := pool.opened.modify handle Held.close }

/-- Closes every connection that the pool still holds, and lets go of them. -/
def close (pool : Pool κ) : Pool κ :=
  { (pool.entries.foldl (fun state entry => state.closeHandle entry.handle) pool) with
    entries := [] }

/-- How the building of a pool ended. If it failed, the pool is what is left of
it. `asked` is every name and address that the connector was asked for. -/
structure Built (κ : Type) where
  pool : Pool κ
  asked : List (String × String)
  failure : Option Error

def duplicateName (config : ServiceConfig) : Error :=
  .connectFailed config.name config.address "duplicate service name"

/-- Connects the remaining services, each after the ones before it. The first
failure closes what was opened. -/
def buildFrom (connector : Connector κ) :
    (pool : Pool κ) → (asked : List (String × String)) → List ServiceConfig → Built κ
  | pool, asked, [] => { pool, asked, failure := none }
  | pool, asked, config :: rest =>
      if (pool.entry? config.name).isSome then
        { pool := pool.close, asked, failure := some (duplicateName config) }
      else
        let askedNow := asked ++ [(config.name, config.address)]
        match connector asked config.name config.address with
        | .error error => { pool := pool.close, asked := askedNow, failure := some error }
        | .ok connection => buildFrom connector (pool.add config connection) askedNow rest

def build (connector : Connector κ) (configs : List ServiceConfig) : Built κ :=
  buildFrom connector empty [] configs

/-- Puts an entry among entries that are sorted by name. -/
def insertEntry (entry : PoolEntry) : List PoolEntry → List PoolEntry
  | [] => [entry]
  | other :: rest =>
      if other.name < entry.name then other :: insertEntry entry rest
      else entry :: other :: rest

def sortedEntries (pool : Pool κ) : List PoolEntry :=
  pool.entries.foldr insertEntry []

def names (pool : Pool κ) : List String :=
  pool.sortedEntries.map PoolEntry.name

def size (pool : Pool κ) : Nat :=
  pool.entries.length

def isEmpty (pool : Pool κ) : Bool :=
  pool.entries.isEmpty

def held? (pool : Pool κ) (handle : Nat) : Option (Held κ) :=
  pool.opened[handle]?

def handle? (pool : Pool κ) (name : String) : Option Nat :=
  (pool.entry? name).map PoolEntry.handle

def connection? (pool : Pool κ) (name : String) : Option (Held κ) :=
  (pool.handle? name).bind pool.held?

/-- Every name with its connection, sorted by name. -/
def connections (pool : Pool κ) : List (String × Held κ) :=
  pool.sortedEntries.filterMap fun entry =>
    (pool.held? entry.handle).map fun held => (entry.name, held)

/-- The place of the connection under a name, if it is used for what is asked. -/
def client? (pool : Pool κ) (name : String) (kind : ClientKind) : Option Nat :=
  match pool.entry? name with
  | some entry => if entry.kind = kind then some entry.handle else none
  | none => none

def requireClient (pool : Pool κ) (name : String) (kind : ClientKind) : Except Error Nat :=
  match pool.client? name kind with
  | some handle => .ok handle
  | none => .error (.notConfigured name)

end Pool

end Precis.Service

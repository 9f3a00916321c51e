import Telepathy.Channel.Manager
import Telepathy.Config.Basic

set_option autoImplicit false

/-!
# What a connection is built from

A connection is built for a protocol, which is its `Backend`, and with channel managers, which are
planned before the connection's path is known and built in the order of the plans.
-/

namespace Telepathy

/-- The protocol behind a connection. Its hooks are called at most once for the same matter, so what
it does is fixed by how it answers each. -/
structure Backend where
  /-- The name of the protocol. -/
  protocol : String
  /-- What tells the connection from others of the same protocol. -/
  account : String
  /-- The interfaces of the connection object beyond those all connections have. -/
  interfaces : List String
  /-- The tokens in which clients may declare interest. -/
  interests : List String
  /-- Why connecting cannot be started, if it cannot. -/
  startFailure : Option Error
  /-- Whether tearing down is not over when the hook returns. -/
  defersShutdown : Bool
  /-- Why an identifier cannot be looked up, if it cannot. -/
  lookupFailure : LookupTicket → EntityType → String → Option Error

/-- The answer of a protocol that has no lookups. -/
def Backend.noLookup (_ : LookupTicket) (entity : EntityType) (_ : String) : Option Error :=
  some ⟨.notImplemented, s!"{entity.name} identifiers cannot be looked up"⟩

/-- A channel manager to be built. -/
inductive ManagerPlan (σ ρ : Type)
  /-- A manager of the application's own, with its state for a connection at a path. -/
  | custom (behaviour : Behaviour σ) (state : ObjectPath → σ)
  /-- A contact list over a server. -/
  | contacts (server : ContactServer ρ) (data : ρ)

namespace ManagerPlan

variable {σ ρ : Type}

/-- The contact list of a connection at `path` before the roster arrives. -/
def emptyList (config : Config) (path : ObjectPath) (capabilities : Capabilities) :
    ContactList where
  capabilities
  basePath := path.child "ContactList"
  queueLimit := config.rosterQueueLimit
  roster := .pending
  channels := .empty

/-- Builds a manager. A contact list gets the channels of its lists at once, though no client knows
of them yet. -/
def build (config : Config) (path : ObjectPath) (tables : HandleTables) :
    ManagerPlan σ ρ → Manager σ ρ × HandleTables
  | custom b state =>
    (.custom b (state path), tables.retainAll (b.holds (state path)))
  | contacts server data =>
    let s : ContactScene ρ :=
      (ContactScene.mk (emptyList config path server.capabilities) data
        (tables.exchangeContacts (server.holds data) []) []).openLists
    (.contacts server s.list s.server, s.tables)

/-- Builds several managers, one after the other. -/
def buildAll (config : Config) (path : ObjectPath) (tables : HandleTables) :
    List (ManagerPlan σ ρ) → List (Manager σ ρ) × HandleTables
  | [] => ([], tables)
  | plan :: plans =>
    let (m, tables) := plan.build config path tables
    let (ms, tables) := buildAll config path tables plans
    (m :: ms, tables)

end ManagerPlan

end Telepathy

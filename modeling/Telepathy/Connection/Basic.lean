import Telepathy.Bus.Basic
import Telepathy.Connection.Backend
import Telepathy.Connection.Interest
import Telepathy.Connection.Names
import Telepathy.Handle.Store
import Telepathy.Request.Report

set_option autoImplicit false

/-!
# Connections

A `Connection` is everything one connection to a service consists of: the protocol behind it, its
handle tables and channel managers, the requests and calls it has not answered, what clients are
interested in, and the bus as far as it concerns the connection. It keeps the list of all events so
far.

An operation runs to completion before the next begins. Most are total functions on connections;
those in which managers act may end in a `Crash`, because a manager can break its promises.
-/

namespace Telepathy

/-- A connection to a service, where `σ` is the state of the application's own managers and `ρ` the
data of contact servers. -/
structure Connection (σ ρ : Type) where
  backend : Backend
  config : Config
  names : Names
  tables : HandleTables
  bus : Bus
  /-- The channel requests that are not answered yet. -/
  ledger : RequestLedger
  /-- The channel managers, in the order in which requests are offered. -/
  managers : List (Manager σ ρ)
  status : Status
  /-- The local user's handle, once known. -/
  self : Option Handle
  interests : InterestTable
  /-- The calls that asked to disconnect and wait for the end of the shutdown. -/
  disconnectCalls : List CallId
  /-- Whether the connection owns its name and its path on the bus. -/
  registered : Bool
  /-- Whether the shutdown is over. -/
  shutDown : Bool
  /-- References that others than the connection and its managers keep. -/
  kept : KeptReferences
  /-- All events so far. -/
  log : List Event

/-- The end of a run in which a promise was broken. -/
structure Crash where
  fault : Fault
  /-- The seat of the manager that broke it, if it did so while the connection called it. -/
  seat : Option Nat
  /-- The events up to the fault. -/
  log : List Event
deriving DecidableEq

namespace Connection

variable {σ ρ : Type}

/-- A new connection. -/
def new (backend : Backend) (config : Config) (tables : HandleTables)
    (plans : List (ManagerPlan σ ρ)) : Connection σ ρ :=
  let names := Names.new config.connectionManager backend.protocol backend.account
  let (managers, tables) := ManagerPlan.buildAll config names.path tables plans
  { backend, config, names, tables, managers
    bus := .empty
    ledger := .empty
    status := .new
    self := none
    interests := .new backend.interests
    disconnectCalls := []
    registered := false
    shutDown := false
    kept := .empty
    log := [] }

/-! ## Reading -/

/-- How many channel requests are not answered yet. -/
def outstanding (c : Connection σ ρ) : Nat := c.ledger.outstanding

/-- The channels of all managers, unless the connection is not connected. -/
def channels (c : Connection σ ρ) : Except Error (List ChannelDetails) :=
  if c.status = .connected then .ok (c.managers.flatMap Manager.channels)
  else .error .notConnected

/-- The channels of all managers as old clients list them. -/
def listings (c : Connection σ ρ) : Except Error (List ChannelListing) :=
  c.channels.map (·.map ChannelDetails.listing)

/-- The classes of channels that clients may request, each listed where it first occurs. -/
def classes (c : Connection σ ρ) : List ChannelClass :=
  (c.managers.flatMap Manager.classes).foldl
    (fun cs k => if cs.any (·.same k) then cs else cs ++ [k]) []

/-- All signals so far, with the objects that sent them. -/
def signals (c : Connection σ ρ) : List (ObjectPath × Signal) :=
  c.log.filterMap fun e =>
    match e with
    | .signal path s => some (path, s)
    | _ => none

/-- All answers to calls so far. -/
def answers (c : Connection σ ρ) : List (CallId × CallAnswer) :=
  c.log.filterMap fun e =>
    match e with
    | .answered call a => some (call, a)
    | _ => none

/-- The answers to one call. -/
def answersTo (c : Connection σ ρ) (call : CallId) : List CallAnswer :=
  (c.answers.filter fun a => a.1 = call).map Prod.snd

/-- All lookups the backend was asked for. -/
def lookups (c : Connection σ ρ) : List (LookupTicket × EntityType × String) :=
  c.log.filterMap fun e =>
    match e with
    | .lookup ticket entity id => some (ticket, entity, id)
    | _ => none

/-- All offers of requests to managers, with the seats of these. -/
def offers (c : Connection σ ρ) : List (Nat × ChannelRequest) :=
  c.log.filterMap fun e =>
    match e with
    | .offered seat r => some (seat, r)
    | _ => none

/-- The positions of the managers. -/
def seats (c : Connection σ ρ) : List Nat := List.range c.managers.length

/-! ## Events -/

/-- Adds events. -/
def record (c : Connection σ ρ) (events : List Event) : Connection σ ρ :=
  { c with log := c.log ++ events }

/-- Sends a signal from the connection. -/
def emit (c : Connection σ ρ) (s : Signal) : Connection σ ρ := c.record [.signal c.names.path s]

/-- Answers a call. -/
def answer (c : Connection σ ρ) (call : CallId) (a : CallAnswer) : Connection σ ρ :=
  c.record [.answered call a]

/-! ## What managers do -/

/-- Carries out a report on requests and channels. -/
def settle (c : Connection σ ρ) (r : Report) : Except Crash (Connection σ ρ) :=
  match c.ledger.settle c.names.path r with
  | .error fault => .error ⟨fault, none, c.log⟩
  | .ok s =>
    .ok ({ c with ledger := s.ledger, tables := c.tables.releaseAll s.released }.record s.events)

/-- Carries out one effect of the manager at `seat`. -/
def perform (seat : Nat) (c : Connection σ ρ) : Effect → Except Crash (Connection σ ρ)
  | .report r => (c.settle r).mapError fun crash => { crash with seat := some seat }
  | .signal path s => .ok (c.record [.signal path s])
  | .called call => .ok (c.record [.called seat call])

/-- Takes over what a manager left behind after a call, and carries out its effects. -/
def takeTurn (c : Connection σ ρ) (seat : Nat) (t : Turn σ ρ) : Except Crash (Connection σ ρ) :=
  t.effects.foldlM (perform seat)
    { c with managers := c.managers.set seat t.manager, tables := t.tables }

end Connection

end Telepathy

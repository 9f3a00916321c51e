import Telepathy.ContactList.Operation

set_option autoImplicit false

/-!
# Channel managers

A connection offers every request to its channel managers in turn. A manager is either a contact
list with its server, or an application's own: then a `Behaviour σ` says how it answers, for any
kind `σ` of state. A manager never acts by itself; whatever it does is the outcome of a call, listed
as effects, together with its new state and the references it takes or gives back.
-/

namespace Telepathy

/-- An answer to a request. -/
structure Response (σ : Type) where
  offer : Offer
  state : σ
  effects : List Effect

/-- How an application's own manager behaves. -/
structure Behaviour (σ : Type) where
  /-- The channels that exist. -/
  channels : σ → List ChannelDetails
  /-- The classes of channels that clients may request. -/
  classes : σ → List ChannelClass
  /-- The answer to a request for a new channel. -/
  create : σ → ChannelRequest → Response σ
  /-- The answer to a request for a channel, new or not. -/
  ensure : σ → ChannelRequest → Response σ
  /-- The answer to the request of an old client; by default that to a request for any channel. -/
  legacy : σ → ChannelRequest → Response σ := ensure
  /-- The reaction to a new status. -/
  statusChanged : σ → Status → σ × List Effect := fun s _ => (s, [])
  /-- The references that the manager holds, once for each. -/
  holds : σ → List Reference := fun _ => []

/-- The answer to a request, by the entry point of its method. -/
def Behaviour.answer {σ : Type} (b : Behaviour σ) (state : σ) (r : ChannelRequest) : Response σ :=
  match r.method with
  | .create => b.create state r
  | .ensure => b.ensure state r
  | .legacy _ => b.legacy state r

/-- A channel manager, where `σ` is the state of an application's own manager and `ρ` the data of a
contact server. -/
inductive Manager (σ ρ : Type)
  /-- A manager of the application's own. -/
  | custom (behaviour : Behaviour σ) (state : σ)
  /-- A contact list and its server. -/
  | contacts (server : ContactServer ρ) (list : ContactList) (data : ρ)

/-- What a manager leaves behind when a call to it is over. -/
structure Turn (σ ρ : Type) where
  manager : Manager σ ρ
  tables : HandleTables
  effects : List Effect

namespace Manager

variable {σ ρ : Type}

/-- The channels that exist. -/
def channels : Manager σ ρ → List ChannelDetails
  | custom b state => b.channels state
  | contacts _ list _ => list.channelDetails

/-- The classes of channels that clients may request. -/
def classes : Manager σ ρ → List ChannelClass
  | custom b state => b.classes state
  | contacts _ list _ => list.classes

/-- Whether a manager is the application's own. -/
def isCustom : Manager σ ρ → Bool
  | custom _ _ => true
  | contacts _ _ _ => false

/-- Ends a call to an application's own manager. -/
def finish (tables : HandleTables) (b : Behaviour σ) (old new : σ) (effects : List Effect) :
    Turn σ ρ where
  manager := custom b new
  -- New references are counted before old ones are given back, so no handle is free in between.
  tables := (tables.retainAll (b.holds new)).releaseAll (b.holds old)
  effects

/-- Ends a call to a contact list. -/
def close (server : ContactServer ρ) (s : ContactScene ρ) : Turn σ ρ :=
  ⟨contacts server s.list s.server, s.tables, s.effects⟩

/-- Offers a request to a manager. -/
def offer (m : Manager σ ρ) (tables : HandleTables) (r : ChannelRequest) : Offer × Turn σ ρ :=
  match m with
  | custom b state =>
    let response := b.answer state r
    (response.offer, finish tables b state response.state response.effects)
  | contacts server list data =>
    let (offer, s) := (ContactScene.mk list data tables []).offer server r
    (offer, close server s)

/-- Tells a manager of a new status. -/
def statusChanged (m : Manager σ ρ) (tables : HandleTables) (status : Status) : Turn σ ρ :=
  match m with
  | custom b state =>
    let (new, effects) := b.statusChanged state status
    finish tables b state new effects
  | contacts server list data =>
    let s := ContactScene.mk list data tables []
    close server (if status = .disconnected then s.disconnect else s)

/-- Carries out an operation on a contact list; none if the manager is no contact list. -/
def performContacts? (m : Manager σ ρ) (tables : HandleTables)
    (op : ContactOperation (SortedSet Handle)) : Option (Except Error Unit × Turn σ ρ) :=
  match m with
  | custom _ _ => none
  | contacts server list data =>
    let (outcome, s) := (ContactScene.mk list data tables []).perform server op
    some (outcome, close server s)

/-- Lets the data of a contact server change by themselves; none if the manager is no contact
list. -/
def changeServer? (m : Manager σ ρ) (tables : HandleTables) (f : ρ → ρ) : Option (Turn σ ρ) :=
  match m with
  | custom _ _ => none
  | contacts server list data =>
    some ⟨contacts server list (f data),
      tables.exchangeContacts (server.holds (f data)) (server.holds data), []⟩

/-- Lets the state of an application's own manager change by itself; none if the manager is a
contact list. -/
def changeState? (m : Manager σ ρ) (tables : HandleTables) (f : σ → σ) : Option (Turn σ ρ) :=
  match m with
  | custom b state => some (finish tables b state (f state) [])
  | contacts _ _ _ => none

end Manager

end Telepathy

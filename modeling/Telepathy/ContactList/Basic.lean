import Telepathy.Channel.Effect
import Telepathy.ContactList.Channel
import Telepathy.ContactList.Refusal
import Telepathy.Handle.Tables

set_option autoImplicit false

/-!
# Contact lists

A `ContactList` is the channel manager for the well-known lists and the groups of one connection. It
knows how far the roster has arrived and owns the channels, announced or not. What it does involves
the server's data and the handle tables of the connection as well: a `ContactScene` is the contact
list with these surroundings, and with the effects it wants so far. Every operation of a contact
list is a function on scenes.
-/

namespace Telepathy

/-- How far the initial roster has arrived. -/
inductive RosterState
  /-- It is on its way; requests wait. -/
  | pending
  /-- It is there; changes are applied as they come. -/
  | received
  /-- It cannot be retrieved; requests fail with this error. -/
  | failed (e : Error)
  /-- The connection is gone. -/
  | disconnected
deriving DecidableEq, Repr

/-- The channel manager for contact lists and groups. -/
structure ContactList where
  capabilities : Capabilities
  /-- The object path above those of the channels. -/
  basePath : ObjectPath
  /-- How many requests may wait for the roster. -/
  queueLimit : Nat
  roster : RosterState
  /-- The channels, lists first. -/
  channels : SortedMap ContactTarget ContactChannel
deriving DecidableEq

namespace ContactList

/-! ## Reading -/

/-- The channel of a well-known list. -/
def list? (l : ContactList) (k : ListKind) : Option ContactChannel := l.channels.get? (.list k)

/-- The channel of a group. -/
def group? (l : ContactList) (name : String) : Option ContactChannel :=
  l.channels.get? (.group name)

/-- The names of all groups with a channel, ascending. -/
def groupNames (l : ContactList) : List String := l.channels.keys.filterMap ContactTarget.group?

/-- The target of the channel at a path, and the channel. -/
def at? (l : ContactList) (path : ObjectPath) : Option (ContactTarget × ContactChannel) :=
  l.channels.toList.find? fun e => e.2.path = path

/-- The number of requests that wait for the roster. -/
def queuedRequests (l : ContactList) : Nat :=
  (l.channels.values.map fun c => c.queued.length).foldr (· + ·) 0

/-- The channels that clients have been told of. -/
def announced (l : ContactList) : List (ContactTarget × ContactChannel) :=
  l.channels.toList.filter fun e => e.2.announced

/-- The details of the announced channels. -/
def channelDetails (l : ContactList) : List ChannelDetails :=
  l.announced.map fun e => e.2.details e.1

/-- The class of channels for targets of one entity type. -/
def channelClass (e : EntityType) : ChannelClass where
  fixed := .ofList
    [(Property.channelType, .text Property.contactListType),
      (Property.targetEntity, .nat e.wire)]
  allowed := [Property.targetHandle, Property.targetId]

/-- The classes of channels that clients may request. -/
def classes (l : ContactList) : List ChannelClass :=
  if l.capabilities.groups.isSupported then [channelClass .list, channelClass .group]
  else [channelClass .list]

/-- The group flags of a channel. -/
def flagsOf (l : ContactList) : ContactTarget → GroupFlags
  | .list k => k.flags l.capabilities
  | .group _ => l.capabilities.groups.flags

/-- The object path of the channel whose target has handle `h`. -/
def pathOf (l : ContactList) (t : ContactTarget) (h : Handle) : ObjectPath :=
  match t with
  | .list _ => l.basePath.child ("List" ++ h.text)
  | .group _ => l.basePath.child ("Group" ++ h.text)

/-! ## Checks -/

/-- Whether clients may change anything: only once the roster is there. -/
def checkReceived (l : ContactList) : Except ContactListRefusal Unit :=
  match l.roster with
  | .received => .ok ()
  | .pending => .error .notReceived
  | .failed e => .error (.rosterFailed e)
  | .disconnected => .error .gone

/-- Whether a request can be served or can wait. -/
def checkServable (l : ContactList) : Except ContactListRefusal Unit :=
  match l.roster with
  | .received => .ok ()
  | .pending => if l.queueLimit ≤ l.queuedRequests then .error .queueFull else .ok ()
  | .failed e => .error (.rosterFailed e)
  | .disconnected => .error .gone

/-- The channel at a path, or the refusal of the path. -/
def channelAt (l : ContactList) (path : ObjectPath) :
    Except ContactListRefusal (ContactTarget × ContactChannel) :=
  match l.at? path with
  | some e => .ok e
  | none => .error (.noChannelAt path)

/-- The channel of a group, or the refusal of its name. -/
def groupNamed (l : ContactList) (name : String) : Except ContactListRefusal ContactChannel :=
  match l.group? name with
  | some c => .ok c
  | none => .error (.noSuchGroup name)

/-- Whether the list follows what the server says of groups. -/
def followsGroups (l : ContactList) : Bool :=
  l.capabilities.groups.isSupported && l.roster != .disconnected

/-! ## Changing channels -/

/-- Puts a channel in place of what was there. -/
def put (l : ContactList) (t : ContactTarget) (c : ContactChannel) : ContactList :=
  { l with channels := l.channels.insert t c }

/-- Takes a channel away. -/
def remove (l : ContactList) (t : ContactTarget) : ContactList :=
  { l with channels := l.channels.erase t }

end ContactList

/-- A contact list with its surroundings. -/
structure ContactScene (σ : Type) where
  list : ContactList
  /-- The server's data. -/
  server : σ
  tables : HandleTables
  /-- What the contact list wants done so far, in order. -/
  effects : List Effect

namespace ContactScene

variable {σ : Type}

/-- Adds an effect. -/
def emit (s : ContactScene σ) (e : Effect) : ContactScene σ :=
  { s with effects := s.effects ++ [e] }

/-- Adds the report that some requests failed. -/
def fail (s : ContactScene σ) (tokens : List RequestToken) (e : Error) : ContactScene σ :=
  { s with effects := s.effects ++ tokens.map fun token => .report (.failed token e) }

/-- Calls the server. The answer is a failure, or none. -/
def call (server : ContactServer σ) (s : ContactScene σ) (m : Mutation) :
    Option Error × ContactScene σ :=
  let name h := (s.tables.inspect ⟨.contact, h⟩).getD ""
  let (answer, data) := server.mutate name s.server m
  (answer.error? m,
    { s with
      server := data
      tables := s.tables.exchangeContacts (server.holds data) (server.holds s.server)
      effects := s.effects ++ [.called ⟨m, m.text name, answer⟩] })

/-- Changes the membership of a channel, if the channel exists. -/
def updateMembership (s : ContactScene σ) (t : ContactTarget) (f : Membership → GroupUpdate) :
    ContactScene σ :=
  match s.list.channels.get? t with
  | none => s
  | some c =>
    let u := f c.membership
    { s with
      list := s.list.put t { c with membership := u.membership }
      tables := s.tables.exchangeContacts u.retained u.released
      effects := s.effects ++ u.signal.toList.map (Effect.signal c.path) }

/-- Carries out a batch on the membership of a channel, if the channel exists. -/
def change (s : ContactScene σ) (t : ContactTarget) (c : MembershipChange) : ContactScene σ :=
  s.updateMembership t (·.change c)

/-- Makes sure that there is a channel for a target. The channel holds the handle of its target, so
this fails if the table of the target does not give one. -/
def openChannel (s : ContactScene σ) (t : ContactTarget) (requested : Bool) :
    Except HandleError (ContactScene σ) :=
  if s.list.channels.contains t then .ok s
  else
    match s.tables.ensure t.entity t.name with
    | .error e => .error e
    | .ok (h, tables) =>
      .ok { s with
        tables := tables.retain ⟨t.entity, h⟩
        list := s.list.put t
          { handle := h
            path := s.list.pathOf t h
            membership := .new none (s.list.flagsOf t)
            requested
            announced := false
            queued := [] } }

/-- Makes sure that there is a channel for a target, if its table gives a handle. -/
def tryOpen (s : ContactScene σ) (t : ContactTarget) : ContactScene σ :=
  match s.openChannel t false with
  | .ok s => s
  | .error _ => s

/-- Gives back what a channel holds. -/
def releaseChannel (s : ContactScene σ) (t : ContactTarget) (c : ContactChannel) :
    ContactScene σ :=
  { s with
    tables :=
      (s.tables.release ⟨t.entity, c.handle⟩).exchangeContacts [] c.membership.holds }

/-- Takes the channel of a target away from the list; it is still to be closed. -/
def detach (s : ContactScene σ) (t : ContactTarget) : ContactScene σ :=
  { s with list := s.list.remove t }

/-- Closes a channel that was taken away: requests that still wait for it fail, and clients who know
of it are told that it is gone. -/
def close (s : ContactScene σ) (t : ContactTarget) (c : ContactChannel) (e : Error) :
    ContactScene σ :=
  let s := (s.fail c.queued e).releaseChannel t c
  if c.announced then (s.emit (.signal c.path .closed)).emit (.report (.closed c.path)) else s

/-- Empties and closes a channel that was taken away. -/
def dismiss (s : ContactScene σ) (t : ContactTarget) (c : ContactChannel) (reason : ChangeReason)
    (e : Error) : ContactScene σ :=
  let u := c.membership.removeAll reason
  let s :=
    { s with
      tables := s.tables.exchangeContacts u.retained u.released
      effects := s.effects ++ u.signal.toList.map (Effect.signal c.path) }
  s.close t { c with membership := u.membership } e

/-- Once the roster is there, tells clients of all channels they do not know, with the requests that
waited for them. -/
def announcePending (s : ContactScene σ) : ContactScene σ :=
  let unknown := s.list.channels.toList.filter fun e => !e.2.announced
  if s.list.roster ≠ .received ∨ unknown = [] then s
  else
    { s with
      list :=
        { s.list with
          channels := s.list.channels.mapValues fun _ c => if c.announced then c else c.announce }
      effects := s.effects ++
        [.report (.newChannels (unknown.map fun e => (e.2.details e.1, e.2.queued)))] }

end ContactScene

end Telepathy

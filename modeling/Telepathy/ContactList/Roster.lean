import Telepathy.ContactList.Basic

set_option autoImplicit false

/-!
# Following the server

A contact list starts with empty channels that no client knows of. When the roster arrives, the
channels are filled and announced all at once; from then on the server's notifications say which
contacts and groups changed, and the contact list reads their new state and passes on the
difference.
-/

namespace Telepathy

namespace Presence

/-- Where a contact belongs on the subscribe list. -/
def subscribePlace : Presence → Place
  | yes => .member
  | ask => .remotePending
  | no => .outside

/-- Where a contact belongs on the publish list; one that asks is put there by a batch of its own,
with its message. -/
def publishPlace? : Presence → Option Place
  | yes => some .member
  | ask => none
  | no => some .outside

end Presence

namespace ContactScene

variable {σ : Type} (server : ContactServer σ)

/-! ## Contacts -/

/-- Reads the state of `changed` contacts and takes `departed` ones off the subscribe, publish and
stored lists; a contact in both sets has departed. -/
def applyContacts (s : ContactScene σ) (changed departed : SortedSet Handle) : ContactScene σ :=
  let present := changed.diff departed
  let states := server.states s.server
  let batch (place? : Handle → Option Place) : MembershipChange :=
    .ofReadings departed present place? .unstated
  let s := s.change (.list .subscribe) (batch fun h => some (states h).subscribe.subscribePlace)
  let s := s.change (.list .publish) (batch fun h => (states h).publish.publishPlace?)
  -- Each contact that asks brings a message of its own, and a batch has only one.
  let asking := present.toList.filter fun h => (states h).publish = .ask
  let s := asking.foldl (fun s h =>
    s.change (.list .publish)
      (.ofSet (.ofList [h]) .localPending ⟨none, .none, (states h).publishRequest⟩)) s
  s.change (.list .stored) (batch fun _ => some .member)

/-- What the server says of contacts that changed or departed; of no interest before the roster
arrived. -/
def contactsChanged (s : ContactScene σ) (changed departed : SortedSet Handle) : ContactScene σ :=
  if s.list.roster = .received then s.applyContacts server changed departed else s

/-- Reads whether some contacts are blocked. -/
def blockingChanged (s : ContactScene σ) (contacts : SortedSet Handle) : ContactScene σ :=
  if s.list.roster = .received then
    let place h := if server.isBlocked s.server h then Place.member else .outside
    s.change (.list .deny) (.ofReadings .empty contacts (fun h => some (place h)) .unstated)
  else s

/-! ## Groups -/

/-- Makes sure that there are channels for some groups. -/
def tryOpenGroups (s : ContactScene σ) (names : List String) : ContactScene σ :=
  names.foldl (fun s name => s.tryOpen (.group name)) s

/-- What the server says of new groups. Names no group can have are passed over. -/
def groupsCreated (s : ContactScene σ) (names : List String) : ContactScene σ :=
  if s.list.followsGroups then
    (s.tryOpenGroups (names.filterMap server.normaliseGroup)).announcePending
  else s

/-- Empties and closes the channel of a group, if there is one. -/
def closeGroup (s : ContactScene σ) (name : String) : ContactScene σ :=
  match s.list.group? name with
  | none => s
  | some c =>
    (s.detach (.group name)).dismiss (.group name) c .none
      (ContactListRefusal.groupRemoved name).toError

/-- What the server says of groups that are gone. -/
def groupsRemoved (s : ContactScene σ) (names : List String) : ContactScene σ :=
  if s.list.followsGroups then
    (names.filterMap server.normaliseGroup).foldl closeGroup s
  else s

/-- Moves the members of one group to another, and closes the first. -/
def moveGroup (s : ContactScene σ) (old target : String) : ContactScene σ :=
  match s.list.group? old with
  | none => s
  | some c =>
    -- The old channel is out of the list first: both names may be the same.
    let s := ((s.detach (.group old)).tryOpen (.group target)).announcePending
    let s := s.change (.group target) (.ofSet c.membership.members .member ⟨none, .renamed, ""⟩)
    s.dismiss (.group old) c .renamed (ContactListRefusal.groupRenamed old).toError

/-- What the server says of a group with a new name. -/
def groupRenamed (s : ContactScene σ) (old target : String) : ContactScene σ :=
  if s.list.followsGroups then
    match server.normaliseGroup old, server.normaliseGroup target with
    | some old, some target => s.moveGroup old target
    | _, _ => s
  else s

/-- What the server says of contacts that joined some groups and left others. Groups that are joined
get channels if they have none. -/
def groupsChanged (s : ContactScene σ) (contacts : SortedSet Handle)
    (added removed : List String) : ContactScene σ :=
  if s.list.followsGroups ∧ s.list.roster = .received then
    let joined := added.filterMap server.normaliseGroup
    let left := removed.filterMap server.normaliseGroup
    let s := (s.tryOpenGroups joined).announcePending
    let s := joined.foldl (fun s name =>
      s.change (.group name) (.ofSet contacts .member .unstated)) s
    left.foldl (fun s name => s.change (.group name) (.ofSet contacts .outside .unstated)) s
  else s

/-! ## The initial roster -/

/-- Makes sure that there are channels for all lists the protocol has. -/
def openLists (s : ContactScene σ) : ContactScene σ :=
  (ListKind.all.filter (·.isSupported s.list.capabilities)).foldl
    (fun s k => s.tryOpen (.list k)) s

/-- Closes the channel of a group that will not come to be, if there is one. -/
def abandonGroup (e : Error) (s : ContactScene σ) (name : String) : ContactScene σ :=
  match s.list.group? name with
  | none => s
  | some c => (s.detach (.group name)).close (.group name) c e

/-- Deals with groups that were requested early but that the server does not know: they are created
there, if clients may create groups; otherwise, or if that fails, their channels are closed. -/
def settleRequestedGroups (s : ContactScene σ) (known : List String) : ContactScene σ :=
  match s.list.groupNames.filter (· ∉ known) with
  | [] => s
  | unknown@(_ :: _) =>
    -- One call for all of them, so they are all created or all closed.
    let (failure, s) :=
      if s.list.capabilities.groups.isEditable then s.call server (.createGroups unknown)
      else (some ContactListRefusal.requestedGroupNotCreatable.toError, s)
    match failure with
    | none => s
    | some e => unknown.foldl (abandonGroup e) s

/-- The members among `contacts` of each group, by normalised name. -/
def groupMembers (data : σ) (contacts : SortedSet Handle) :
    SortedMap String (SortedSet Handle) :=
  let place (groups : SortedMap String (SortedSet Handle)) (e : String × Handle) :=
    groups.insert e.1 (((groups.get? e.1).getD .empty).insert e.2)
  (contacts.toList.flatMap fun h =>
    ((server.groupsOf data h).filterMap server.normaliseGroup).map fun name => (name, h)).foldl
    place .empty

/-- Fills the groups, if there are any, creating channels for those that only a contact mentions. -/
def loadGroupMembers (s : ContactScene σ) (contacts : SortedSet Handle) : ContactScene σ :=
  if s.list.capabilities.groups.isSupported then
    let members := groupMembers server s.server contacts
    members.toList.foldl (fun s e => s.change (.group e.1) (.ofSet e.2 .member .unstated))
      (s.tryOpenGroups members.keys)
  else s

/-- Fills the list of blocked contacts, if there is one. -/
def loadBlocked (s : ContactScene σ) : ContactScene σ :=
  if s.list.capabilities.canBlock then
    s.change (.list .deny) (.ofSet (server.blocked s.server) .member .unstated)
  else s

/-- The groups the server knows, by normalised name. -/
def knownGroups (s : ContactScene σ) : List String :=
  if s.list.capabilities.groups.isSupported then
    (server.groups s.server).filterMap server.normaliseGroup
  else []

/-- Makes sure that there are channels for the groups the server knows, and for no others. -/
def loadGroups (s : ContactScene σ) : ContactScene σ :=
  let known := s.knownGroups server
  (s.tryOpenGroups known).settleRequestedGroups server known

/-- Fills all channels with what the server knows of some contacts. -/
def fillChannels (s : ContactScene σ) (contacts : SortedSet Handle) : ContactScene σ :=
  ((s.applyContacts server contacts .empty).loadBlocked server).loadGroupMembers server contacts

/-- Takes over the roster: channels are created and filled first, so that they carry the initial
state by the time clients are told of them. -/
def loadRoster (s : ContactScene σ) : ContactScene σ :=
  -- The roster counts as received from here on, or the channels could not be announced below.
  let s := (openLists { s with list := { s.list with roster := .received } }).loadGroups server
  (s.fillChannels server (server.contacts s.server)).announcePending

/-- The roster has arrived. Only the first such notice counts. -/
def rosterReceived (s : ContactScene σ) : ContactScene σ :=
  if s.list.roster = .pending then s.loadRoster server else s

/-- The roster cannot be retrieved: requests that wait for it fail, and so will later ones. -/
def rosterFailed (s : ContactScene σ) (e : Error) : ContactScene σ :=
  if s.list.roster = .pending then
    let waiting := s.list.channels.values.flatMap (·.queued)
    let list :=
      { s.list with
        roster := .failed e
        channels := s.list.channels.mapValues fun _ c => { c with queued := [] } }
    { s with list }.fail waiting e
  else s

/-- The connection is gone: all channels go away, and nothing is served any more. Requests that
still wait are answered by the connection itself. -/
def disconnect (s : ContactScene σ) : ContactScene σ :=
  let channels := s.list.channels.toList
  let s := { s with list := { s.list with roster := .disconnected, channels := .empty } }
  channels.foldl (fun s e =>
    let s := s.releaseChannel e.1 e.2
    if e.2.announced then s.emit (.signal e.2.path .closed) else s) s

end ContactScene

end Telepathy

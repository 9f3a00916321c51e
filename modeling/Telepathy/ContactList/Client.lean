import Telepathy.ContactList.Roster

set_option autoImplicit false

/-!
# Clients changing a contact list

A client adds contacts to a channel, removes some, closes a group or renames one. Such a change is
checked first and then left to the server; only when the server has carried it out does the contact
list read the new state, just as if the server had notified it. A change that is refused or fails
leaves the channels as they were.
-/

namespace Telepathy

/-- The outcome of a client's change. -/
abbrev ContactOutcome (σ : Type) := Except ContactListRefusal Unit × ContactScene σ

namespace ContactTarget

/-- The call that adds contacts to a channel. -/
def addition (t : ContactTarget) (contacts : SortedSet Handle) (message : String) : Mutation :=
  match t with
  | .list .subscribe => .requestSubscription contacts message
  | .list .publish => .authorizePublication contacts
  | .list .stored => .storeContacts contacts
  | .list .deny => .blockContacts contacts
  | .group name => .addToGroup name contacts

/-- The call that removes contacts from a channel. -/
def removal (t : ContactTarget) (contacts : SortedSet Handle) : Mutation :=
  match t with
  | .list .subscribe => .unsubscribe contacts
  | .list .publish => .unpublish contacts
  | .list .stored => .removeContacts contacts
  | .list .deny => .unblockContacts contacts
  | .group name => .removeFromGroup name contacts

end ContactTarget

namespace ContactList

/-- The channel a client wants to add contacts to, and those that are not members yet. -/
def checkAddition (l : ContactList) (path : ObjectPath) (contacts : SortedSet Handle) :
    Except ContactListRefusal (ContactTarget × SortedSet Handle) := do
  l.checkReceived
  let (t, c) ← l.channelAt path
  let outstanding ← (c.membership.checkAdd contacts).mapError .policy
  return (t, outstanding)

/-- The channel a client wants to remove contacts from. -/
def checkRemoval (l : ContactList) (path : ObjectPath) (contacts : SortedSet Handle) :
    Except ContactListRefusal ContactTarget := do
  l.checkReceived
  let (t, c) ← l.channelAt path
  (c.membership.checkRemove contacts).mapError .policy
  return t

/-- The group a client wants to close. -/
def checkClosing (l : ContactList) (path : ObjectPath) : Except ContactListRefusal String := do
  let (t, c) ← l.channelAt path
  match t with
  | .list _ => throw .listNotClosable
  | .group name =>
    if !c.membership.isEmpty then throw .groupNotEmpty
    if !l.capabilities.groups.isEditable then throw .groupsNotRemovable
    return name

/-- How the groups of a contact list are renamed. -/
def renameStrategy (l : ContactList) : Except ContactListRefusal GroupRename :=
  match l.capabilities.groups with
  | .editable rename => .ok rename
  | .none | .readOnly => .error .groupsNotRenamable

end ContactList

namespace ContactScene

variable {σ : Type} (server : ContactServer σ)

/-- Reads the new state after contacts were added to a channel. -/
def followAddition (s : ContactScene σ) (t : ContactTarget) (contacts : SortedSet Handle) :
    ContactScene σ :=
  match t with
  | .list .subscribe | .list .publish | .list .stored => s.applyContacts server contacts .empty
  | .list .deny => s.blockingChanged server contacts
  | .group name => s.groupsChanged server contacts [name] []

/-- Reads the new state after contacts were removed from a channel. -/
def followRemoval (s : ContactScene σ) (t : ContactTarget) (contacts : SortedSet Handle) :
    ContactScene σ :=
  match t with
  | .list .subscribe | .list .publish => s.applyContacts server contacts .empty
  | .list .stored => s.applyContacts server .empty contacts
  | .list .deny => s.blockingChanged server contacts
  | .group name => s.groupsChanged server contacts [] [name]

/-- A client adds contacts to the channel at a path. The server is asked only about those that are
not members yet. -/
def addMembers (s : ContactScene σ) (path : ObjectPath) (contacts : SortedSet Handle)
    (message : String) : ContactOutcome σ :=
  match s.list.checkAddition path contacts with
  | .error r => (.error r, s)
  | .ok (t, outstanding) =>
    if outstanding.isEmpty then (.ok (), s)
    else
      match s.call server (t.addition outstanding message) with
      | (some e, s) => (.error (.server e), s)
      | (none, s) => (.ok (), s.followAddition server t outstanding)

/-- A client removes contacts from the channel at a path. -/
def removeMembers (s : ContactScene σ) (path : ObjectPath) (contacts : SortedSet Handle) :
    ContactOutcome σ :=
  match s.list.checkRemoval path contacts with
  | .error r => (.error r, s)
  | .ok t =>
    match s.call server (t.removal contacts) with
    | (some e, s) => (.error (.server e), s)
    | (none, s) => (.ok (), s.followRemoval server t contacts)

/-- A client closes the channel at a path, which deletes the group. Lists stay, and so do groups
that are not empty. -/
def closeChannel (s : ContactScene σ) (path : ObjectPath) : ContactOutcome σ :=
  match s.list.checkClosing path with
  | .error r => (.error r, s)
  | .ok name =>
    match s.call server (.removeGroup name) with
    | (some e, s) => (.error (.server e), s)
    | (none, s) => (.ok (), s.groupsRemoved server [name])

/-- Renames a group on a server that cannot: creates the new group, copies the members and removes
the old group. If a later step fails, the new group gets a channel all the same. -/
def emulateRename (s : ContactScene σ) (old target : String) (members : SortedSet Handle) :
    Option Error × ContactScene σ :=
  match s.call server (.createGroups [target]) with
  | (some e, s) => (some e, s)
  | (none, s) =>
    let (failure, s) :=
      if members.isEmpty then (none, s) else s.call server (.addToGroup target members)
    match failure with
    -- The server has the new group, though nobody is in it yet.
    | some e => (some e, s.groupsCreated server [target])
    | none =>
      match s.call server (.removeGroup old) with
      -- The server has both groups now, with the same members.
      | (some e, s) => (some e, s.groupsChanged server members [target] [])
      | (none, s) => (none, s)

/-- Has the server rename a group in the way it can. -/
def callRename (s : ContactScene σ) (rename : GroupRename) (old target : String)
    (members : SortedSet Handle) : Option Error × ContactScene σ :=
  match rename with
  | .native => s.call server (.renameGroup old target)
  | .emulated => s.emulateRename server old target members

/-- The canonical form of a group's name that a client gave. -/
def canonicalGroup (name : String) : Except ContactListRefusal String :=
  match server.normaliseGroup name with
  | some name => .ok name
  | none => .error (.badGroupName name)

/-- What a client's renaming amounts to: the way to do it, the two names and the group's members. -/
def checkRenaming (l : ContactList) (old target : String) :
    Except ContactListRefusal (GroupRename × String × String × SortedSet Handle) := do
  let rename ← l.renameStrategy
  let old ← canonicalGroup server old
  let target ← canonicalGroup server target
  let c ← l.groupNamed old
  if (l.group? target).isSome then throw (.groupExists target)
  return (rename, old, target, c.membership.members)

/-- A client renames a group to a name that no group has. -/
def renameGroup (s : ContactScene σ) (old target : String) : ContactOutcome σ :=
  match checkRenaming server s.list old target with
  | .error r => (.error r, s)
  | .ok (rename, old, target, members) =>
    match s.callRename server rename old target members with
    | (some e, s) => (.error (.server e), s)
    | (none, s) => (.ok (), s.groupRenamed server old target)

end ContactScene

end Telepathy

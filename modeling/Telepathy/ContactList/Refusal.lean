import Telepathy.Handle.Error
import Telepathy.Bus.Address
import Telepathy.Group.Policy

set_option autoImplicit false

/-!
# Refusals of a contact list

Why a contact list does not serve a request or a change by a client, how that reads, and which kind
of error the client sees.
-/

namespace Telepathy

/-- Why a contact list refuses something. -/
inductive ContactListRefusal
  /-- The roster has not arrived. -/
  | notReceived
  /-- As many requests as may wait for the roster are waiting. -/
  | queueFull
  /-- The roster could not be retrieved. -/
  | rosterFailed (e : Error)
  /-- The connection is gone. -/
  | gone
  | noChannelAt (path : ObjectPath)
  | listNotClosable
  | groupNotEmpty
  | groupsNotRemovable
  | groupsNotRenamable
  /-- A client gave a name no group can have. -/
  | badGroupName (name : String)
  /-- A request names a group by an identifier no group can have. -/
  | badGroupId (id : String)
  | noSuchGroup (name : String)
  | groupExists (name : String)
  | unknownList (name : String)
  | unsupportedList (name : String)
  | listExists (name : String)
  | groupsUnsupported
  /-- The group does not exist, and clients cannot create it. -/
  | groupNotCreatable (name : String)
  /-- A group requested before the roster arrived turns out not to exist. -/
  | requestedGroupNotCreatable
  | groupRemoved (name : String)
  | groupRenamed (name : String)
  | policy (r : GroupRefusal)
  | handle (e : HandleError)
  /-- The server failed the call. -/
  | server (e : Error)
deriving DecidableEq, Repr

/-- The error a client sees. -/
def ContactListRefusal.toError : ContactListRefusal → Error
  | notReceived => ⟨.notAvailable, "the contact list has not been received yet"⟩
  | queueFull => ⟨.notAvailable, "too many contact list requests are waiting for the roster"⟩
  | rosterFailed e => e
  | gone => .notConnected
  | noChannelAt path => ⟨.invalidArgument, s!"no contact list channel at {path.text}"⟩
  | listNotClosable =>
    ⟨.notImplemented, "ContactList channels with handle type LIST may not be closed"⟩
  | groupNotEmpty => ⟨.notAvailable, "Non-empty groups may not be deleted (closed)"⟩
  | groupsNotRemovable => ⟨.notImplemented, "groups cannot be removed from this contact list"⟩
  | groupsNotRenamable => ⟨.notImplemented, "groups cannot be renamed on this contact list"⟩
  | badGroupName name => ⟨.invalidArgument, s!"'{name}' is not a valid group name"⟩
  | badGroupId id => ⟨.invalidHandle, s!"'{id}' is not a valid group name"⟩
  | noSuchGroup name => ⟨.notAvailable, s!"group '{name}' does not exist"⟩
  | groupExists name => ⟨.notAvailable, s!"group '{name}' already exists"⟩
  | unknownList name => ⟨.invalidHandle, s!"'{name}' is not a contact list"⟩
  | unsupportedList name =>
    ⟨.notImplemented, s!"the {name} list is not supported by this connection"⟩
  | listExists name => ⟨.notAvailable, s!"the {name} list already exists; use EnsureChannel"⟩
  | groupsUnsupported =>
    ⟨.notImplemented, "contact groups are not supported by this connection"⟩
  | groupNotCreatable name =>
    ⟨.notAvailable, s!"group '{name}' does not exist and groups cannot be created"⟩
  | requestedGroupNotCreatable =>
    ⟨.notAvailable, "the requested group does not exist and groups cannot be created"⟩
  | groupRemoved name => ⟨.notAvailable, s!"group '{name}' was removed"⟩
  | groupRenamed name => ⟨.notAvailable, s!"group '{name}' was renamed"⟩
  | policy r => r.toError
  | handle e => e.toError
  | server e => e

end Telepathy

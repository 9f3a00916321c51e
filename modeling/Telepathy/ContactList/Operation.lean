import Telepathy.ContactList.Legacy
import Telepathy.ContactList.Requests
import Telepathy.Handle.Contact

set_option autoImplicit false

/-!
# What happens to a contact list

Apart from requests, a contact list is driven by its server, which notifies it of changes, and by
clients, which change it. A `ContactOperation` is one such event; the type of contacts is a
parameter, because whoever talks to a connection names contacts in ways that have to be resolved to
handles first.
-/

namespace Telepathy

/-- An event in the life of a contact list, where `κ` stands for sets of contacts. -/
inductive ContactOperation (κ : Type)
  /-- The roster has arrived. -/
  | received
  /-- The roster cannot be retrieved. -/
  | failed (e : Error)
  /-- Contacts changed, or are no longer on the server. -/
  | contactsChanged (changed departed : κ)
  /-- Contacts were blocked or unblocked. -/
  | blockingChanged (contacts : κ)
  | groupsCreated (names : List String)
  | groupsRemoved (names : List String)
  | groupRenamed (old target : String)
  /-- Contacts joined some groups and left others. -/
  | groupsChanged (contacts : κ) (added removed : List String)
  /-- A client adds contacts to a channel. -/
  | addMembers (path : ObjectPath) (contacts : κ) (message : String)
  /-- A client removes contacts from a channel. -/
  | removeMembers (path : ObjectPath) (contacts : κ)
  /-- A client closes a channel. -/
  | closeChannel (path : ObjectPath)
  /-- A client renames a group. -/
  | renameGroup (old target : String)
  /-- An old client adds contacts to a channel, by number. -/
  | legacyAdd (path : ObjectPath) (numbers : List Nat) (message : String)
  /-- An old client removes contacts from a channel, by number. -/
  | legacyRemove (path : ObjectPath) (numbers : List Nat)
deriving DecidableEq

namespace ContactOperation

/-- The operation with its contacts found; the first name that does not resolve decides. -/
def resolve (t : HandleTable) :
    ContactOperation (List ContactName) →
      Except NameRefusal (ContactOperation (SortedSet Handle)) × HandleTable
  | received => (.ok received, t)
  | failed e => (.ok (failed e), t)
  | contactsChanged changed departed =>
    match t.resolveSet changed with
    | (.error e, t) => (.error e, t)
    | (.ok changed, t) =>
      let (departed, t) := t.resolveSet departed
      (departed.map (contactsChanged changed), t)
  | blockingChanged contacts =>
    let (contacts, t) := t.resolveSet contacts
    (contacts.map blockingChanged, t)
  | groupsCreated names => (.ok (groupsCreated names), t)
  | groupsRemoved names => (.ok (groupsRemoved names), t)
  | groupRenamed old target => (.ok (groupRenamed old target), t)
  | groupsChanged contacts added removed =>
    let (contacts, t) := t.resolveSet contacts
    (contacts.map (groupsChanged · added removed), t)
  | addMembers path contacts message =>
    let (contacts, t) := t.resolveSet contacts
    (contacts.map (addMembers path · message), t)
  | removeMembers path contacts =>
    let (contacts, t) := t.resolveSet contacts
    (contacts.map (removeMembers path), t)
  | closeChannel path => (.ok (closeChannel path), t)
  | renameGroup old target => (.ok (renameGroup old target), t)
  | legacyAdd path numbers message => (.ok (legacyAdd path numbers message), t)
  | legacyRemove path numbers => (.ok (legacyRemove path numbers), t)

end ContactOperation

namespace ContactScene

variable {σ : Type}

/-- A notice from the server cannot fail. -/
def noticed (s : ContactScene σ) : Except Error Unit × ContactScene σ := (.ok (), s)

/-- A client's change fails with the error for its refusal. -/
def concluded (outcome : ContactOutcome σ) : Except Error Unit × ContactScene σ :=
  (outcome.1.mapError ContactListRefusal.toError, outcome.2)

/-- Carries out one operation. -/
def perform (server : ContactServer σ) (s : ContactScene σ) :
    ContactOperation (SortedSet Handle) → Except Error Unit × ContactScene σ
  | .received => noticed (s.rosterReceived server)
  | .failed e => noticed (s.rosterFailed e)
  | .contactsChanged changed departed => noticed (s.contactsChanged server changed departed)
  | .blockingChanged contacts => noticed (s.blockingChanged server contacts)
  | .groupsCreated names => noticed (s.groupsCreated server names)
  | .groupsRemoved names => noticed (s.groupsRemoved server names)
  | .groupRenamed old target => noticed (s.groupRenamed server old target)
  | .groupsChanged contacts added removed =>
    noticed (s.groupsChanged server contacts added removed)
  | .addMembers path contacts message => concluded (s.addMembers server path contacts message)
  | .removeMembers path contacts => concluded (s.removeMembers server path contacts)
  | .closeChannel path => concluded (s.closeChannel server path)
  | .renameGroup old target => concluded (s.renameGroup server old target)
  | .legacyAdd path numbers message =>
    let (outcome, s) := s.legacyAddMembers server path numbers message
    (outcome.mapError LegacyRefusal.toError, s)
  | .legacyRemove path numbers =>
    let (outcome, s) := s.legacyRemoveMembers server path numbers
    (outcome.mapError LegacyRefusal.toError, s)

end ContactScene

end Telepathy

import Telepathy.ContactList.Capabilities
import Telepathy.Error
import Telepathy.Handle.Basic
import Telepathy.Sorted.Set
import Telepathy.Text.Blank

set_option autoImplicit false

/-!
# The server side of a contact list

A contact list reflects what a server knows. A `ContactServer σ` says, for any kind `σ` of server
data, how to read it, how it reacts to the calls by which clients change it, and on which contacts
it holds references. Nothing else is assumed of a server: any call may fail, and may change the data
in any way.
-/

namespace Telepathy

/-- One direction of a presence subscription. -/
inductive Presence
  | no
  /-- Asked for, and not yet answered. -/
  | ask
  | yes
deriving DecidableEq, Repr, Inhabited

namespace Presence

/-- The name of a state. -/
def name : Presence → String
  | no => "NO"
  | ask => "ASK"
  | yes => "YES"

/-- The state with a given name. -/
def ofName? (s : String) : Option Presence := [no, ask, yes].find? (·.name == s)

end Presence

/-- What a server knows of the subscriptions between the user and a contact. -/
structure PresenceStates where
  /-- Whether the user receives the contact's presence. -/
  subscribe : Presence
  /-- Whether the contact receives the user's presence. -/
  publish : Presence
  /-- What the contact wrote when it asked for the user's presence. -/
  publishRequest : String
deriving DecidableEq, Repr

namespace PresenceStates

/-- No subscription either way. -/
def unrelated : PresenceStates := ⟨.no, .no, ""⟩

end PresenceStates

/-- A call that changes server data. -/
inductive Mutation
  | requestSubscription (contacts : SortedSet Handle) (message : String)
  | authorizePublication (contacts : SortedSet Handle)
  | storeContacts (contacts : SortedSet Handle)
  | removeContacts (contacts : SortedSet Handle)
  | unsubscribe (contacts : SortedSet Handle)
  | unpublish (contacts : SortedSet Handle)
  | blockContacts (contacts : SortedSet Handle)
  | unblockContacts (contacts : SortedSet Handle)
  | createGroups (names : List String)
  | renameGroup (old target : String)
  | removeGroup (name : String)
  | addToGroup (group : String) (contacts : SortedSet Handle)
  | removeFromGroup (group : String) (contacts : SortedSet Handle)
deriving DecidableEq

namespace Mutation

/-- What a call does, as a phrase. -/
def phrase : Mutation → String
  | requestSubscription _ _ => "requesting subscriptions"
  | authorizePublication _ => "authorizing publication"
  | storeContacts _ => "storing contacts"
  | removeContacts _ => "removing contacts"
  | unsubscribe _ => "unsubscribing"
  | unpublish _ => "unpublishing"
  | blockContacts _ => "blocking contacts"
  | unblockContacts _ => "unblocking contacts"
  | createGroups _ => "creating groups"
  | renameGroup _ _ => "renaming groups"
  | removeGroup _ => "removing groups"
  | addToGroup _ _ => "adding contacts to groups"
  | removeFromGroup _ _ => "removing contacts from groups"

/-- A call as one line of text; `name` spells contacts. -/
def text (name : Handle → String) : Mutation → String
  | requestSubscription contacts message => s!"subscribe:{spell contacts}:{message}"
  | authorizePublication contacts => s!"authorize:{spell contacts}"
  | storeContacts contacts => s!"store:{spell contacts}"
  | removeContacts contacts => s!"remove:{spell contacts}"
  | unsubscribe contacts => s!"unsubscribe:{spell contacts}"
  | unpublish contacts => s!"unpublish:{spell contacts}"
  | blockContacts contacts => s!"block:{spell contacts}"
  | unblockContacts contacts => s!"unblock:{spell contacts}"
  | createGroups names => "create-groups:" ++ ",".intercalate names
  | renameGroup old target => s!"rename-group:{old}:{target}"
  | removeGroup group => s!"remove-group:{group}"
  | addToGroup group contacts => s!"add-to-group:{group}:{spell contacts}"
  | removeFromGroup group contacts => s!"remove-from-group:{group}:{spell contacts}"
where
  /-- The contacts of a call, joined by commas. -/
  spell (contacts : SortedSet Handle) : String := ",".intercalate (contacts.toList.map name)

end Mutation

/-- How a server reacts to a call. -/
inductive ServerAnswer
  /-- The call was carried out. -/
  | done
  | refused (error : Error)
  /-- The protocol has no such call. -/
  | unsupported
deriving DecidableEq, Repr

/-- The failure of a call, if it failed. -/
def ServerAnswer.error? (m : Mutation) : ServerAnswer → Option Error
  | done => none
  | refused error => some error
  | unsupported =>
    some ⟨.notImplemented, s!"{m.phrase} is not supported by this contact list"⟩

/-- How to read and change the contact list a server keeps as data of type `σ`. -/
structure ContactServer (σ : Type) where
  capabilities : Capabilities
  /-- All contacts of the user. -/
  contacts : σ → SortedSet Handle
  /-- The subscriptions of a contact. -/
  states : σ → Handle → PresenceStates
  /-- The names of all groups. -/
  groups : σ → List String
  /-- The names of the groups of a contact. -/
  groupsOf : σ → Handle → List String
  /-- All blocked contacts. -/
  blocked : σ → SortedSet Handle
  /-- Whether a contact is blocked. -/
  isBlocked : σ → Handle → Bool
  /-- The canonical form of a group's name; none if it is not acceptable. -/
  normaliseGroup : String → Option String
  /-- The reaction to a call; the first argument spells contacts. -/
  mutate : (Handle → String) → σ → Mutation → ServerAnswer × σ
  /-- The contacts on which the server holds references, once for each. -/
  holds : σ → List Handle

namespace ContactServer

/-- The usual canonical form of a group's name: no blanks at its ends, and not empty. -/
def trimmedGroup (name : String) : Option String :=
  let trimmed := Text.trim name
  if trimmed = "" then none else some trimmed

end ContactServer

end Telepathy

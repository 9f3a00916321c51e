import Telepathy.ContactList.Server
import Telepathy.Sorted.Keys

set_option autoImplicit false

/-!
# A contact server in memory

The simplest `ContactServer`: it keeps contacts, groups and blocked contacts in maps, and does what
it is asked unless it was told to refuse the call. It serves to try out contact lists, and to have a
concrete server for statements about all of them.
-/

namespace Telepathy

/-- The data of a contact server in memory. -/
structure MemoryRoster where
  entries : SortedMap Handle PresenceStates
  /-- The members of each group; membership holds no reference. -/
  groups : SortedMap String (SortedSet Handle)
  blocked : SortedSet Handle
  /-- Calls whose text starts like one of these are refused. -/
  refused : List String
deriving DecidableEq

/-- A part of a contact server that a protocol may lack. -/
inductive ServerFeature
  | requestSubscription
  | authorizePublication
  | storeContacts
  | removeContacts
  | unsubscribe
  | unpublish
  | blockContacts
  | unblockContacts
  | createGroups
  | renameGroup
  | removeGroup
  | addToGroup
  | removeFromGroup
  | groups
  | groupsOf
  | blocked
  | isBlocked
deriving DecidableEq, Repr

namespace ServerFeature

/-- The name of a feature. -/
def name : ServerFeature → String
  | requestSubscription => "request_subscription"
  | authorizePublication => "authorize_publication"
  | storeContacts => "store_contacts"
  | removeContacts => "remove_contacts"
  | unsubscribe => "unsubscribe"
  | unpublish => "unpublish"
  | blockContacts => "block_contacts"
  | unblockContacts => "unblock_contacts"
  | createGroups => "create_groups"
  | renameGroup => "rename_group"
  | removeGroup => "remove_group"
  | addToGroup => "add_to_group"
  | removeFromGroup => "remove_from_group"
  | groups => "groups"
  | groupsOf => "contact_groups"
  | blocked => "blocked_contacts"
  | isBlocked => "is_blocked"

/-- All features. -/
def all : List ServerFeature :=
  [requestSubscription, authorizePublication, storeContacts, removeContacts, unsubscribe,
    unpublish, blockContacts, unblockContacts, createGroups, renameGroup, removeGroup,
    addToGroup, removeFromGroup, groups, groupsOf, blocked, isBlocked]

/-- The feature with a given name. -/
def ofName? (s : String) : Option ServerFeature := all.find? (·.name == s)

end ServerFeature

/-- The feature that a call needs. -/
def Mutation.feature : Mutation → ServerFeature
  | requestSubscription _ _ => .requestSubscription
  | authorizePublication _ => .authorizePublication
  | storeContacts _ => .storeContacts
  | removeContacts _ => .removeContacts
  | unsubscribe _ => .unsubscribe
  | unpublish _ => .unpublish
  | blockContacts _ => .blockContacts
  | unblockContacts _ => .unblockContacts
  | createGroups _ => .createGroups
  | renameGroup _ _ => .renameGroup
  | removeGroup _ => .removeGroup
  | addToGroup _ _ => .addToGroup
  | removeFromGroup _ _ => .removeFromGroup

namespace MemoryRoster

/-- A roster without contacts and groups. -/
def empty : MemoryRoster := ⟨.empty, .empty, .empty, []⟩

/-- What is known of a contact. -/
def statesOf (r : MemoryRoster) (h : Handle) : PresenceStates :=
  (r.entries.get? h).getD .unrelated

/-- The members of a group. -/
def membersOf (r : MemoryRoster) (group : String) : SortedSet Handle :=
  (r.groups.get? group).getD .empty

/-- Changes what is known of some contacts; contacts not known before are created. -/
def adjust (r : MemoryRoster) (contacts : SortedSet Handle)
    (f : PresenceStates → PresenceStates) : MemoryRoster :=
  contacts.toList.foldl (fun r h => { r with entries := r.entries.insert h (f (r.statesOf h)) }) r

/-- Makes sure that a group exists. -/
def createGroup (r : MemoryRoster) (group : String) : MemoryRoster :=
  { r with groups := r.groups.insert group (r.membersOf group) }

/-- Adds contacts to a group, which is created if need be. -/
def join (r : MemoryRoster) (group : String) (contacts : SortedSet Handle) : MemoryRoster :=
  { r with groups := r.groups.insert group ((r.membersOf group).union contacts) }

/-- Blocks contacts. -/
def block (r : MemoryRoster) (contacts : SortedSet Handle) : MemoryRoster :=
  { r with blocked := r.blocked.union contacts }

/-- Unblocks contacts. -/
def unblock (r : MemoryRoster) (contacts : SortedSet Handle) : MemoryRoster :=
  { r with blocked := r.blocked.diff contacts }

/-- The roster after a call that was carried out. -/
def carryOut (r : MemoryRoster) : Mutation → MemoryRoster
  | .requestSubscription contacts _ => r.adjust contacts ({ · with subscribe := .ask })
  | .authorizePublication contacts =>
    r.adjust contacts ({ · with publish := .yes, publishRequest := "" })
  | .storeContacts contacts => r.adjust contacts id
  | .removeContacts contacts => { r with entries := r.entries.filter fun h _ => h ∉ contacts }
  | .unsubscribe contacts => r.adjust contacts ({ · with subscribe := .no })
  | .unpublish contacts => r.adjust contacts ({ · with publish := .no })
  | .blockContacts contacts => r.block contacts
  | .unblockContacts contacts => r.unblock contacts
  | .createGroups names => names.foldl createGroup r
  | .renameGroup old target =>
    { r with groups := (r.groups.erase old).insert target (r.membersOf old) }
  | .removeGroup group => { r with groups := r.groups.erase group }
  | .addToGroup group contacts => r.join group contacts
  | .removeFromGroup group contacts =>
    { r with groups := r.groups.modify group (·.diff contacts) }

/-- Whether a call of this text is refused. -/
def refuses (r : MemoryRoster) (text : String) : Bool :=
  r.refused.any fun start => start.toList.isPrefixOf text.toList

/-- The reaction to a call the protocol has. -/
def react (r : MemoryRoster) (text : String) (m : Mutation) : ServerAnswer × MemoryRoster :=
  if r.refuses text then (.refused ⟨.permissionDenied, "server refused"⟩, r)
  else (.done, r.carryOut m)

/-- The server over such rosters, for a protocol that lacks some features. With `caseless`, groups
are named without regard to the case of ASCII letters. -/
def server (capabilities : Capabilities) (lacking : List ServerFeature) (caseless : Bool) :
    ContactServer MemoryRoster where
  capabilities
  contacts r := r.entries.keySet
  states := statesOf
  groups r := if .groups ∈ lacking then [] else r.groups.keys
  groupsOf r h :=
    if .groupsOf ∈ lacking then []
    else (r.groups.filter fun _ members => h ∈ members).keys
  blocked r := if .blocked ∈ lacking then .empty else r.blocked
  isBlocked r h := .isBlocked ∉ lacking && h ∈ r.blocked
  normaliseGroup name :=
    (ContactServer.trimmedGroup name).map fun name => if caseless then Text.lower name else name
  mutate name r m :=
    if m.feature ∈ lacking then (.unsupported, r) else r.react (m.text name) m
  holds r := r.entries.keys ++ r.blocked.toList

end MemoryRoster

end Telepathy

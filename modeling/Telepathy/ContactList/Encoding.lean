import Telepathy.ContactList.Basic
import Telepathy.ContactList.MemoryServer
import Telepathy.Group.Encoding

set_option autoImplicit false

/-!
# Contact lists as values

The written form of a contact list: how far its roster has arrived, all channels with their members
and waiting requests, and the data of its server.
-/

namespace Telepathy

/-- How far a roster has arrived. -/
def RosterState.value : RosterState → Value
  | pending => .text "pending"
  | received => .text "received"
  | failed e => .ofFields [("failed", e.value)]
  | disconnected => .text "disconnected"

/-- A channel of a contact list. -/
def ContactChannel.value (c : ContactChannel) (t : ContactTarget) : Value :=
  .ofFields (c.membership.fields ++
    [("name", .text t.name), ("entity", .text t.entity.name), ("handle", .ofHandle c.handle),
      ("path", .text c.path.text), ("announced", .bool c.announced),
      ("queued", .ofTexts (c.queued.map RequestToken.text))])

/-- A contact with its presence states. -/
def PresenceStates.value (s : PresenceStates) (h : Handle) : Value :=
  .array [.ofHandle h, .text s.subscribe.name, .text s.publish.name, .text s.publishRequest]

/-- The data of a server in memory. -/
def MemoryRoster.value (r : MemoryRoster) : Value :=
  .ofFields
    [("contacts", .array (r.entries.toList.map fun e => e.2.value e.1)),
      ("groups", .ofFields (r.groups.toList.map fun e => (e.1, .ofHandles e.2.toList))),
      ("blocked", .ofHandles r.blocked.toList)]

/-- The channels and groups of a contact list. -/
def ContactList.fields (l : ContactList) : List (String × Value) :=
  [("channels", .array (l.channels.toList.map fun e => e.2.value e.1)),
    ("groups", .ofTexts l.groupNames)]

end Telepathy

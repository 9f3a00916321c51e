import Telepathy.Bus.Signal
import Telepathy.Value.Object

set_option autoImplicit false

/-!
# What is sent, as values

Signals, replies and errors have a written form for logs: an object with one field that names the
kind, and one field for each part. Enumerations appear as their integers on the bus, except for the
reason of a membership change, which appears by name.
-/

namespace Telepathy

namespace Value

/-- A property map as an object. -/
def ofProperties (p : PropertyMap) : Value := .object p.toList

/-- A handle as its number. -/
def ofHandle (h : Handle) : Value := nat h.number

/-- Handles as an array of their numbers. -/
def ofHandles (hs : List Handle) : Value := .array (hs.map ofHandle)

/-- A handle as its number; null for none. -/
def ofHandle? (h : Option Handle) : Value := h.elim .null ofHandle

/-- A text; null for none. -/
def ofText? (s : Option String) : Value := s.elim .null .text

/-- An array of texts. -/
def ofTexts (l : List String) : Value := .array (l.map .text)

end Value

/-- The fields of an error. -/
def Error.fields (e : Error) : List (String × Value) :=
  [("error", .text e.kind.shortName), ("message", .text e.message)]

/-- The written form of an error. -/
def Error.value (e : Error) : Value := .ofFields e.fields

/-- The fields of a channel as it is announced. -/
def ChannelDetails.fields (d : ChannelDetails) : List (String × Value) :=
  [("path", .text d.path.text), ("properties", .ofProperties d.properties)]

/-- A channel as it is announced. -/
def ChannelDetails.value (d : ChannelDetails) : Value := .ofFields d.fields

/-- The fields of a membership change. -/
def MembersChanged.fields (c : MembersChanged) : List (String × Value) :=
  [("message", .text c.message), ("added", .ofHandles c.added), ("removed", .ofHandles c.removed),
    ("local_pending", .ofHandles c.localPending), ("remote_pending", .ofHandles c.remotePending),
    ("actor", .ofHandle? c.actor), ("reason", .text c.reason.label)]

/-- The fields of a signal beside its name. -/
def Signal.fields : Signal → List (String × Value)
  | statusChanged status reason => [("status", .nat status.wire), ("reason", .nat reason.wire)]
  | selfContactChanged handle id => [("handle", .ofHandle handle), ("identifier", .text id)]
  | newChannels channels => [("channels", .array (channels.map ChannelDetails.value))]
  | newChannel path channelType entity handle suppressHandler =>
    [("path", .text path.text), ("channel_type", .text channelType),
      ("entity_type", .nat entity.wire), ("handle", .nat (Handle.numberOrZero handle)),
      ("suppress_handler", .bool suppressHandler)]
  | channelClosed path => [("path", .text path.text)]
  | closed => []
  | membersChanged change => change.fields
  | groupFlagsChanged added removed =>
    [("added", .text added.text), ("removed", .text removed.text)]

/-- The written form of a signal. -/
def Signal.value (s : Signal) : Value := .ofFields (("signal", .text s.name) :: s.fields)

/-- The name of a kind of reply. -/
def Reply.kind : Reply → String
  | done => "unit"
  | created _ => "channel_created"
  | ensured _ _ => "channel_ensured"
  | requested _ => "channel_requested"

/-- The fields of a reply beside its kind. -/
def Reply.fields : Reply → List (String × Value)
  | done => []
  | created channel => channel.fields
  | ensured yours channel => ("yours", .bool yours) :: channel.fields
  | requested path => [("path", .text path.text)]

/-- The tuple by which old clients list a channel. -/
def ChannelListing.value (l : ChannelListing) : Value :=
  .array [.text l.path.text, .text l.channelType, .nat l.entity, .nat l.handle]

/-- A class of channels. -/
def ChannelClass.value (c : ChannelClass) : Value :=
  .ofFields [("fixed", .ofProperties c.fixed), ("allowed", .ofTexts c.allowed)]

/-- The written form of a reply. -/
def Reply.value (r : Reply) : Value := .ofFields (("kind", .text r.kind) :: r.fields)

end Telepathy

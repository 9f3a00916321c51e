import Telepathy.Sorted.Map
import Telepathy.Value.Basic

set_option autoImplicit false

/-!
# Property maps

Clients ask for channels, and connections describe them, by maps from qualified property names to
values. This module names the properties the connection itself reads or writes.
-/

namespace Telepathy

/-- A map from qualified property names to values. -/
abbrev PropertyMap := SortedMap String Value

namespace Property

/-- The interface every channel implements. -/
def channelInterface : String := "org.freedesktop.Telepathy.Channel"

/-- The type of a channel. -/
def channelType : String := "org.freedesktop.Telepathy.Channel.ChannelType"

/-- The entity type of a channel's target. -/
def targetEntity : String := "org.freedesktop.Telepathy.Channel.TargetHandleType"

/-- The handle of a channel's target. -/
def targetHandle : String := "org.freedesktop.Telepathy.Channel.TargetHandle"

/-- The identifier of a channel's target. -/
def targetId : String := "org.freedesktop.Telepathy.Channel.TargetID"

/-- The handle of a channel's initiator; only the connection may set it. -/
def initiatorHandle : String := "org.freedesktop.Telepathy.Channel.InitiatorHandle"

/-- The identifier of a channel's initiator; only the connection may set it. -/
def initiatorId : String := "org.freedesktop.Telepathy.Channel.InitiatorID"

/-- Whether a channel was requested; only the connection may set it. -/
def requested : String := "org.freedesktop.Telepathy.Channel.Requested"

/-- The further interfaces of a channel. -/
def interfaces : String := "org.freedesktop.Telepathy.Channel.Interfaces"

/-- The channel type of contact lists and contact groups. -/
def contactListType : String := "org.freedesktop.Telepathy.Channel.Type.ContactList"

/-- The interface of channels with members. -/
def groupInterface : String := "org.freedesktop.Telepathy.Channel.Interface.Group"

end Property

namespace PropertyMap

/-- The text stored under `key`, if the value there is a text. -/
def text? (properties : PropertyMap) (key : String) : Option String :=
  (properties.get? key).bind Value.text?

/-- The integer stored under `key`, if the value there is an integer from 0 to 2^32 - 1. -/
def word? (properties : PropertyMap) (key : String) : Option Nat :=
  (properties.get? key).bind Value.word?

end PropertyMap

end Telepathy

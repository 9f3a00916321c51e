import Telepathy.Bus.Address
import Telepathy.Handle.Basic
import Telepathy.Value.Property

set_option autoImplicit false

/-!
# Channel details

A channel is announced by its path and its immutable properties; its type and target are read from
the properties. Old clients list channels as tuples instead.
-/

namespace Telepathy

/-- A channel as clients are told of it. -/
structure ChannelDetails where
  path : ObjectPath
  properties : PropertyMap
deriving DecidableEq

namespace ChannelDetails

/-- The channel type, if the properties have one. -/
def channelType? (d : ChannelDetails) : Option String := d.properties.text? Property.channelType

/-- The channel type, empty if the properties have none. -/
def channelType (d : ChannelDetails) : String := d.channelType?.getD ""

/-- The entity type of the target; a channel without a known one has no target. -/
def entity (d : ChannelDetails) : EntityType :=
  ((d.properties.word? Property.targetEntity).bind EntityType.ofWire?).getD .none

/-- The target's handle, if there is one. -/
def target? (d : ChannelDetails) : Option Handle :=
  (d.properties.word? Property.targetHandle).bind Handle.ofNat?

end ChannelDetails

/-- A channel as old clients list it. -/
structure ChannelListing where
  path : ObjectPath
  channelType : String
  /-- The entity type of the target as an integer. -/
  entity : Nat
  /-- The target's handle, zero for none. -/
  handle : Nat
deriving DecidableEq, Repr

/-- The tuple for a channel. -/
def ChannelDetails.listing (d : ChannelDetails) : ChannelListing :=
  ⟨d.path, d.channelType, d.entity.wire, Handle.numberOrZero d.target?⟩

/-- A class of channels that clients may request. -/
structure ChannelClass where
  /-- Properties a request must have with exactly these values. -/
  fixed : PropertyMap
  /-- Further properties a request may have. -/
  allowed : List String
deriving DecidableEq

/-- Whether two classes are the same to clients, who do not tell `0.0` from `-0.0`. -/
def ChannelClass.same (k k' : ChannelClass) : Bool :=
  k.fixed.mapValues (fun _ v => v.unsignZeros) = k'.fixed.mapValues (fun _ v => v.unsignZeros) &&
    k.allowed = k'.allowed

end Telepathy

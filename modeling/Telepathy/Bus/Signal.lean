import Telepathy.Channel.Details
import Telepathy.Connection.Status
import Telepathy.Group.Change

set_option autoImplicit false

/-!
# Signals and replies

What a connection sends on the bus: signals, which go to whoever listens, and replies, which answer
one call each.
-/

namespace Telepathy

/-- A signal of a connection or of one of its channels. -/
inductive Signal
  /-- The status of the connection changed. -/
  | statusChanged (status : Status) (reason : StatusReason)
  /-- The local user has another handle. -/
  | selfContactChanged (handle : Handle) (id : String)
  /-- Channels came into being. -/
  | newChannels (channels : List ChannelDetails)
  /-- One channel came into being, as old clients are told; `suppressHandler` says whether a
  requester is going to handle it. -/
  | newChannel (path : ObjectPath) (channelType : String) (entity : EntityType)
      (handle : Option Handle) (suppressHandler : Bool)
  /-- A channel went away, said by the connection. -/
  | channelClosed (path : ObjectPath)
  /-- A channel went away, said by the channel. -/
  | closed
  /-- The members of a group changed. -/
  | membersChanged (change : MembersChanged)
  /-- The flags of a group changed. -/
  | groupFlagsChanged (added removed : GroupFlags)
deriving DecidableEq

/-- The name of a signal. -/
def Signal.name : Signal → String
  | statusChanged _ _ => "StatusChanged"
  | selfContactChanged _ _ => "SelfContactChanged"
  | newChannels _ => "NewChannels"
  | newChannel _ _ _ _ _ => "NewChannel"
  | channelClosed _ => "ChannelClosed"
  | closed => "Closed"
  | membersChanged _ => "MembersChanged"
  | groupFlagsChanged _ _ => "GroupFlagsChanged"

/-- What a successful call is answered. -/
inductive Reply
  /-- There is nothing to say. -/
  | done
  /-- A channel was created for the caller. -/
  | created (channel : ChannelDetails)
  /-- A channel exists; `yours` says whether the caller is to handle it. -/
  | ensured (yours : Bool) (channel : ChannelDetails)
  /-- A channel exists, as old clients are told. -/
  | requested (path : ObjectPath)
deriving DecidableEq

/-- The answer to a call. -/
inductive CallAnswer
  | returned (r : Reply)
  | failed (e : Error)
deriving DecidableEq

end Telepathy

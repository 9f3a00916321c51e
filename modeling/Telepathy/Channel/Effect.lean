import Telepathy.Bus.Signal
import Telepathy.ContactList.Server
import Telepathy.Request.Basic

set_option autoImplicit false

/-!
# What channel managers do to their surroundings

A channel manager owns some of a connection's channels. It does not act on the bus or on pending
requests by itself: it lists the effects it wants, in order, and the connection carries them out.
-/

namespace Telepathy

/-- What a manager tells its connection about channels and requests. -/
inductive Report
  /-- Channels came into being, each satisfying some requests. -/
  | newChannels (batch : List (ChannelDetails × List RequestToken))
  /-- A request is satisfied by a channel that existed before. -/
  | alreadySatisfied (token : RequestToken) (channel : ChannelDetails)
  /-- A request failed. -/
  | failed (token : RequestToken) (error : Error)
  /-- A channel went away. -/
  | closed (path : ObjectPath)
deriving DecidableEq

/-- A call to a contact server, and how the server reacted. -/
structure ServerCall where
  mutation : Mutation
  /-- The call as text. -/
  text : String
  answer : ServerAnswer
deriving DecidableEq

/-- One thing a manager does. -/
inductive Effect
  | report (r : Report)
  /-- Sends a signal from a channel. -/
  | signal (path : ObjectPath) (s : Signal)
  /-- Has called a contact server; nothing is left to be done about it. -/
  | called (call : ServerCall)
deriving DecidableEq

/-- Whether a manager takes charge of a request. -/
inductive Offer
  /-- The manager will report on the request, or has done so already. -/
  | accepted
  /-- The request is not for this manager. -/
  | declined
deriving DecidableEq, Repr

end Telepathy

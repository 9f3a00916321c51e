set_option autoImplicit false

/-!
# Ways of requesting a channel

A client asks for a new channel, for any channel of some kind, or, if it is an old client, by a call
that says whether it is going to handle the channel itself.
-/

namespace Telepathy

/-- The call that asks for a channel. -/
inductive RequestMethod
  /-- A new channel, whatever exists. -/
  | create
  /-- A channel, new or not. -/
  | ensure
  /-- The call of old clients. -/
  | legacy (suppressHandler : Bool)
deriving DecidableEq, Repr

namespace RequestMethod

/-- The name of the call. -/
def name : RequestMethod → String
  | create => "CreateChannel"
  | ensure => "EnsureChannel"
  | legacy _ => "RequestChannel"

/-- Whether a channel made for such a request is to be left to the requester. -/
def suppressesHandler : RequestMethod → Bool
  | create => true
  | ensure => false
  | legacy suppress => suppress

end RequestMethod

end Telepathy

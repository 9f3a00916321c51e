import Telepathy.ContactList.Client

set_option autoImplicit false

/-!
# The view of old clients

Old clients name contacts by bare numbers and see only the channels they were told of. This view
turns numbers into handles in use, all or none, and otherwise leaves everything to the contact list.
-/

namespace Telepathy

/-- Why the view of old clients refuses something. -/
inductive LegacyRefusal
  /-- Zero is no contact. -/
  | zero
  | handle (e : HandleError)
  | contactList (r : ContactListRefusal)
deriving DecidableEq, Repr

/-- The error a client sees. -/
def LegacyRefusal.toError : LegacyRefusal → Error
  | zero => ⟨.invalidHandle, "handle 0 is never a valid contact"⟩
  | handle e => e.toError
  | contactList r => r.toError

namespace HandleTable

/-- The handle in use with a given number. -/
def holdNumber (t : HandleTable) (n : Nat) : Except LegacyRefusal Handle :=
  match Handle.ofNat? n with
  | none => .error .zero
  | some h => (t.hold h).mapError .handle

/-- The set of handles in use with given numbers; the first number that is none decides. -/
def holdNumbers (t : HandleTable) (ns : List Nat) : Except LegacyRefusal (SortedSet Handle) :=
  (ns.mapM t.holdNumber).map .ofList

end HandleTable

namespace ContactList

/-- The announced channels as old clients list them. -/
def listings (l : ContactList) : List ChannelListing :=
  l.channelDetails.map ChannelDetails.listing

/-- The membership of the announced channel at a path. -/
def announcedAt (l : ContactList) (path : ObjectPath) : Except LegacyRefusal Membership :=
  match l.at? path with
  | some (_, c) =>
    if c.announced then .ok c.membership else .error (.contactList (.noChannelAt path))
  | none => .error (.contactList (.noChannelAt path))

/-- The handles in each of the three places of a channel. -/
def legacyMembers (l : ContactList) (path : ObjectPath) :
    Except LegacyRefusal (List Handle × List Handle × List Handle) :=
  (l.announcedAt path).map fun m =>
    (m.members.toList, m.localPending.toList, m.remotePending.toList)

/-- The local-pending handles of a channel with their provenance. -/
def legacyLocalPending (l : ContactList) (path : ObjectPath) :
    Except LegacyRefusal (List LocalPending) :=
  (l.announcedAt path).map Membership.localPendingInfo

/-- The flags of a channel as an integer. -/
def legacyFlags (l : ContactList) (path : ObjectPath) : Except LegacyRefusal Nat :=
  (l.announcedAt path).map (·.flags.toNat)

end ContactList

namespace ContactScene

variable {σ : Type} (server : ContactServer σ)

/-- An old client adds contacts to the channel at a path. -/
def legacyAddMembers (s : ContactScene σ) (path : ObjectPath) (numbers : List Nat)
    (message : String) : Except LegacyRefusal Unit × ContactScene σ :=
  match s.tables.contact.holdNumbers numbers with
  | .error r => (.error r, s)
  | .ok contacts =>
    let (outcome, s) := s.addMembers server path contacts message
    (outcome.mapError .contactList, s)

/-- An old client removes contacts from the channel at a path. -/
def legacyRemoveMembers (s : ContactScene σ) (path : ObjectPath) (numbers : List Nat) :
    Except LegacyRefusal Unit × ContactScene σ :=
  match s.tables.contact.holdNumbers numbers with
  | .error r => (.error r, s)
  | .ok contacts =>
    let (outcome, s) := s.removeMembers server path contacts
    (outcome.mapError .contactList, s)

end ContactScene

end Telepathy

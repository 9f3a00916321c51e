set_option autoImplicit false

/-!
# Group flags and reasons

The flags of a channel with members say what clients may do with it, and every change of membership
carries a reason.
-/

namespace Telepathy

/-- A set of the thirteen group flags, one bit each. -/
structure GroupFlags where
  bits : BitVec 13
deriving DecidableEq, Repr

namespace GroupFlags

/-- The flags of an integer from the bus; bits that mean nothing are dropped. -/
def ofNat (n : Nat) : GroupFlags := ⟨.ofNat 13 n⟩

/-- The integer of a set of flags. -/
def toNat (f : GroupFlags) : Nat := f.bits.toNat

/-- No flag. -/
def none : GroupFlags := ⟨0⟩

/-- Clients may add members. -/
def canAdd : GroupFlags := ofNat 0x1
/-- Clients may remove members and reject local-pending ones. -/
def canRemove : GroupFlags := ofNat 0x2
/-- Clients may rescind remote-pending invitations. -/
def canRescind : GroupFlags := ofNat 0x4
/-- A message accompanies additions. -/
def messageAdd : GroupFlags := ofNat 0x8
/-- A message accompanies removals. -/
def messageRemove : GroupFlags := ofNat 0x10
/-- A message accompanies the acceptance of local-pending members. -/
def messageAccept : GroupFlags := ofNat 0x20
/-- A message accompanies the rejection of local-pending members. -/
def messageReject : GroupFlags := ofNat 0x40
/-- A message accompanies the rescission of remote-pending members. -/
def messageRescind : GroupFlags := ofNat 0x80
/-- Members are handles of this channel only, with owners outside it. -/
def channelSpecificHandles : GroupFlags := ofNat 0x100
/-- A contact can be in one such group only. -/
def onlyOneGroup : GroupFlags := ofNat 0x200
/-- The owners of channel-specific handles cannot be known. -/
def handleOwnersNotAvailable : GroupFlags := ofNat 0x400
/-- The state of the group is exposed as properties. -/
def properties : GroupFlags := ofNat 0x800
/-- Changes of membership are signalled in detail. -/
def membersChangedDetailed : GroupFlags := ofNat 0x1000

/-- Every flag with its name, by ascending bit. -/
def named : List (GroupFlags × String) :=
  [(canAdd, "CAN_ADD"), (canRemove, "CAN_REMOVE"), (canRescind, "CAN_RESCIND"),
    (messageAdd, "MESSAGE_ADD"), (messageRemove, "MESSAGE_REMOVE"),
    (messageAccept, "MESSAGE_ACCEPT"), (messageReject, "MESSAGE_REJECT"),
    (messageRescind, "MESSAGE_RESCIND"), (channelSpecificHandles, "CHANNEL_SPECIFIC_HANDLES"),
    (onlyOneGroup, "ONLY_ONE_GROUP"), (handleOwnersNotAvailable, "HANDLE_OWNERS_NOT_AVAILABLE"),
    (properties, "PROPERTIES"), (membersChangedDetailed, "MEMBERS_CHANGED_DETAILED")]

/-- The flags of either set. -/
def union (f g : GroupFlags) : GroupFlags := ⟨f.bits ||| g.bits⟩

/-- The flags of both sets. -/
def inter (f g : GroupFlags) : GroupFlags := ⟨f.bits &&& g.bits⟩

/-- The flags of `f` that are not in `g`. -/
def diff (f g : GroupFlags) : GroupFlags := ⟨f.bits &&& ~~~g.bits⟩

/-- Whether all flags of `g` are set in `f`. -/
def has (f g : GroupFlags) : Bool := f.inter g = g

instance : OrOp GroupFlags := ⟨union⟩

/-- The names of the flags, joined by bars. -/
def text (f : GroupFlags) : String :=
  " | ".intercalate ((named.filter fun flag => f.has flag.1).map (·.2))

end GroupFlags

/-- Why membership changed. -/
inductive ChangeReason
  | none
  | offline
  | kicked
  | busy
  | invited
  | banned
  | error
  | invalidContact
  | noAnswer
  | renamed
  | permissionDenied
  | separated
deriving DecidableEq, Repr

namespace ChangeReason

/-- All reasons, by their integer on the bus. -/
def all : List ChangeReason :=
  [none, offline, kicked, busy, invited, banned, error, invalidContact, noAnswer, renamed,
    permissionDenied, separated]

/-- The integer for a reason on the bus. -/
def wire (r : ChangeReason) : Nat := all.idxOf r

/-- The name of a reason. -/
def name : ChangeReason → String
  | none => "none"
  | offline => "offline"
  | kicked => "kicked"
  | busy => "busy"
  | invited => "invited"
  | banned => "banned"
  | error => "error"
  | invalidContact => "invalid_contact"
  | noAnswer => "no_answer"
  | renamed => "renamed"
  | permissionDenied => "permission_denied"
  | separated => "separated"

/-- The name of a reason in a recorded signal. -/
def label : ChangeReason → String
  | none => "None"
  | offline => "Offline"
  | kicked => "Kicked"
  | busy => "Busy"
  | invited => "Invited"
  | banned => "Banned"
  | error => "Error"
  | invalidContact => "InvalidContact"
  | noAnswer => "NoAnswer"
  | renamed => "Renamed"
  | permissionDenied => "PermissionDenied"
  | separated => "Separated"

/-- The reason with a given name. -/
def ofName? (s : String) : Option ChangeReason := all.find? (·.name == s)

end ChangeReason

end Telepathy

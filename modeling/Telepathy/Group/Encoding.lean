import Telepathy.Bus.Encoding
import Telepathy.Group.Membership

set_option autoImplicit false

/-!
# Memberships as values

The written form of what clients can read of a group: the handles in its three places, its flags as
an integer, and the provenance of its local-pending members.
-/

namespace Telepathy

/-- A local-pending handle with its provenance. -/
def LocalPending.value (p : LocalPending) : Value :=
  .ofFields
    [("handle", .ofHandle p.handle), ("actor", .ofHandle? p.provenance.actor),
      ("reason", .text p.provenance.reason.label), ("message", .text p.provenance.message)]

/-- The fields of a membership. -/
def Membership.fields (m : Membership) : List (String × Value) :=
  [("members", .ofHandles m.members.toList), ("local", .ofHandles m.localPending.toList),
    ("remote", .ofHandles m.remotePending.toList), ("flags", .nat m.flags.toNat),
    ("pending", .array (m.localPendingInfo.map LocalPending.value))]

end Telepathy

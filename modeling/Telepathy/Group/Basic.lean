import Telepathy.Group.Policy
import Telepathy.Handle.Contact

set_option autoImplicit false

/-!
# A group on the bus

A `Group` is a membership together with what it acts on: the table whose handles it holds, and the
signals it has sent from its path. `run` carries out a list of operations, which is what the laws
about groups are stated for.
-/

namespace Telepathy

/-- What is done to a membership. -/
inductive GroupOperation
  /-- Carries out the batch of four sets. -/
  | change (members departures localPending remotePending : SortedSet Handle)
      (provenance : Provenance)
  | removeAll (reason : ChangeReason)
  | changeFlags (add remove : GroupFlags)
  | addOwner (h owner : Handle)

/-- Carries out one operation on a membership. A batch that contradicts itself is a fault, as it is
in a checked build. -/
def Membership.perform (m : Membership) : GroupOperation → Except Fault GroupUpdate
  | .change members departures localPending remotePending provenance =>
    match MembershipChange.ofSets? members departures localPending remotePending provenance with
    | some c => .ok (m.change c)
    | none => .error .overlappingChange
  | .removeAll reason => .ok (m.removeAll reason)
  | .changeFlags add remove => m.changeFlags add remove
  | .addOwner h owner => .ok (m.addOwner h owner)

/-- A membership, the table of its handles, and the signals sent so far. -/
structure Group where
  path : ObjectPath
  table : HandleTable
  membership : Membership
  signals : List Signal

namespace Group

/-- A group without members; it holds the local user's handle. -/
def new (path : ObjectPath) (table : HandleTable) (self : Option Handle) (flags : GroupFlags) :
    Group :=
  ⟨path, table.exchange self.toList [], .new self flags, []⟩

/-- Takes over the outcome of an operation. -/
def update (g : Group) (u : GroupUpdate) : Group :=
  { g with
    table := g.table.exchange u.retained u.released
    membership := u.membership
    signals := g.signals ++ u.signal.toList }

/-- Carries out one operation. -/
def step (g : Group) (op : GroupOperation) : Except Fault Group :=
  (g.membership.perform op).map g.update

/-- Carries out a list of operations, up to the first fault. -/
def run (g : Group) (ops : List GroupOperation) : Except Fault Group := ops.foldlM step g

/-- The number of handles of the table that nobody holds, and the group after they are reclaimed. -/
def collect (g : Group) : Nat × Group :=
  (g.table.collect.1, { g with table := g.table.collect.2 })

end Group

end Telepathy

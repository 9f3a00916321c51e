import Telepathy.Bus.Signal
import Telepathy.Fault
import Telepathy.Sorted.Keys

set_option autoImplicit false

/-!
# Membership of a group

A group-shaped channel has members, contacts waiting for the local user (local-pending) and contacts
whose own answer is awaited (remote-pending). A `Membership` gives each handle at most one standing,
so the three sets are disjoint by construction, and a local-pending handle always comes with the
provenance of the batch that put it there. That the sets of a group stay so when they are stored and
changed one by one is another matter: see `GroupSets`, which refines this state.

Every operation returns a `GroupUpdate`: the new state, the one signal that tells clients what moved
(none if nothing did), and the references the group took and gave back. A standing holds a reference
on its handle and on the actor of its provenance; recorded owners and the self handle are held too.
-/

namespace Telepathy

/-- What a handle is in a group. -/
inductive Standing
  | member
  /-- Waiting for the local user, put there by a batch of this provenance. -/
  | localPending (provenance : Provenance)
  /-- Invited, and yet to answer. -/
  | remotePending
deriving DecidableEq, Repr

namespace Standing

/-- Where a handle of this standing is. -/
def place : Standing → Place
  | member => .member
  | localPending _ => .localPending
  | remotePending => .remotePending

/-- The standing of a handle that a batch sends to `p`. -/
def ofPlace? (p : Place) (provenance : Provenance) : Option Standing :=
  match p with
  | .member => some member
  | .localPending => some (localPending provenance)
  | .remotePending => some remotePending
  | .outside => none

/-- The handles a group holds for the sake of `h` with this standing. -/
def holds (h : Handle) : Standing → List Handle
  | member | remotePending => [h]
  | localPending provenance => h :: provenance.actor.toList

end Standing

/-- The membership of one group. -/
structure Membership where
  /-- The local user's handle in the group. -/
  self : Option Handle
  flags : GroupFlags
  standings : SortedMap Handle Standing
  /-- Owners of channel-specific handles, as far as they were recorded. -/
  owners : SortedMap Handle Handle
deriving DecidableEq

/-- The outcome of an operation on a group. -/
structure GroupUpdate where
  membership : Membership
  signal : Option Signal
  /-- Handles on which the group now holds a further reference. -/
  retained : List Handle
  /-- Handles on which the group gave a reference back. -/
  released : List Handle
deriving DecidableEq

/-- Whether anything changed that clients are told of; the caller of an operation learns this. -/
def GroupUpdate.changed (u : GroupUpdate) : Bool := u.signal.isSome

/-- A local-pending handle with its provenance. -/
structure LocalPending where
  handle : Handle
  provenance : Provenance
deriving DecidableEq, Repr

namespace Membership

/-! ## Reading -/

/-- A group without members. -/
def new (self : Option Handle) (flags : GroupFlags) : Membership := ⟨self, flags, .empty, .empty⟩

/-- Where a handle is. -/
def placeOf (m : Membership) (h : Handle) : Place :=
  (m.standings.get? h).elim .outside Standing.place

/-- The handles that are in a given place. -/
def inPlace (m : Membership) (p : Place) : SortedSet Handle :=
  m.standings.keysWhere (·.place = p)

/-- The full members. -/
def members (m : Membership) : SortedSet Handle := m.inPlace .member

/-- The handles that wait for the local user. -/
def localPending (m : Membership) : SortedSet Handle := m.inPlace .localPending

/-- The handles whose own answer is awaited. -/
def remotePending (m : Membership) : SortedSet Handle := m.inPlace .remotePending

/-- All handles of the group, whatever their standing. -/
def everyone (m : Membership) : SortedSet Handle := m.standings.keySet

/-- Whether a handle has any standing. -/
def contains (m : Membership) (h : Handle) : Bool := m.standings.contains h

/-- Whether nobody has any standing. -/
def isEmpty (m : Membership) : Bool := m.standings.isEmpty

/-- The local-pending handles with their provenance, by ascending handle. -/
def localPendingInfo (m : Membership) : List LocalPending :=
  m.standings.toList.filterMap fun e =>
    match e.2 with
    | .localPending provenance => some ⟨e.1, provenance⟩
    | .member | .remotePending => none

/-- The handles the group holds, once for each reference. -/
def holds (m : Membership) : List Handle :=
  m.self.toList ++ m.standings.toList.flatMap (fun e => e.2.holds e.1) ++ m.owners.values

/-! ## Changing the members -/

/-- The progress of a batch: the state so far, the handles that moved and where to, and the
references exchanged. -/
structure Progress where
  membership : Membership
  moves : List (Handle × Place)
  retained : List Handle
  released : List Handle

/-- The state after `h` went to `p`. Leaving the group forgets the owner of the handle. -/
def settle (m : Membership) (provenance : Provenance) (h : Handle) (p : Place) : Membership :=
  match Standing.ofPlace? p provenance with
  | some s => { m with standings := m.standings.insert h s }
  | none =>
    if m.contains h then
      { m with standings := m.standings.erase h, owners := m.owners.erase h }
    else m

/-- Sends one handle to its place. -/
def Progress.send (provenance : Provenance) (u : Progress) (h : Handle) (p : Place) :
    Progress where
  membership := u.membership.settle provenance h p
  -- A handle that stays where it is has not moved, even if its provenance is new.
  moves := if u.membership.placeOf h = p then u.moves else u.moves ++ [(h, p)]
  retained := u.retained ++ (Standing.ofPlace? p provenance).elim [] (·.holds h)
  released :=
    u.released ++ (u.membership.standings.get? h).elim [] (·.holds h) ++
      (if p = .outside ∧ u.membership.contains h then (u.membership.owners.get? h).toList else [])

/-- The handles that moved to `p`, in the order in which they moved. -/
def movedTo (moves : List (Handle × Place)) (p : Place) : List Handle :=
  (moves.filter fun e => e.2 = p).map Prod.fst

/-- The signal for a list of moves; none if nobody moved. -/
def announcement (provenance : Provenance) (moves : List (Handle × Place)) : Option Signal :=
  if moves.isEmpty then none
  else
    some (.membersChanged
      { message := provenance.message
        added := movedTo moves .member
        removed := movedTo moves .outside
        localPending := movedTo moves .localPending
        remotePending := movedTo moves .remotePending
        actor := provenance.actor
        reason := provenance.reason })

/-- Carries out a batch. -/
def change (m : Membership) (c : MembershipChange) : GroupUpdate :=
  let u : Progress :=
    c.places.toList.foldl (fun u e => u.send c.provenance e.1 e.2) ⟨m, [], [], []⟩
  ⟨u.membership, announcement c.provenance u.moves, u.retained, u.released⟩

/-- Removes everyone. -/
def removeAll (m : Membership) (reason : ChangeReason) : GroupUpdate :=
  m.change (.ofSet m.everyone .outside ⟨none, reason, ""⟩)

/-! ## Flags and owners -/

/-- Sets some flags and clears others; a flag cannot be both. -/
def changeFlags (m : Membership) (add remove : GroupFlags) : Except Fault GroupUpdate :=
  if add.inter remove ≠ .none then .error (.contradictoryFlags (add.inter remove))
  else
    let added := add.diff m.flags
    let removed := remove.inter m.flags
    if added = .none ∧ removed = .none then .ok ⟨m, none, [], []⟩
    else
      .ok ⟨{ m with flags := (m.flags.union added).diff removed },
        some (.groupFlagsChanged added removed), [], []⟩

/-- Records who owns a channel-specific handle. -/
def addOwner (m : Membership) (h owner : Handle) : GroupUpdate :=
  ⟨{ m with owners := m.owners.insert h owner }, none, [owner], (m.owners.get? h).toList⟩

end Membership

end Telepathy

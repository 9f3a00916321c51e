import Telepathy.Group.Flags
import Telepathy.Handle.Basic
import Telepathy.Sorted.Map
import Telepathy.Sorted.Set

set_option autoImplicit false

/-!
# Batches of membership changes

A batch sends each handle it names to one place: into the group, into one of its two waiting rooms,
or out. It is therefore a map from handles to places, and a batch cannot contradict itself. A caller
with four separate sets builds the batch with `MembershipChange.ofSets?`, which refuses sets that
overlap.
-/

namespace Telepathy

/-- Where a batch sends a handle. -/
inductive Place
  /-- Among the full members. -/
  | member
  /-- Among those who wait for the local user's approval. -/
  | localPending
  /-- Among those whose own approval is awaited. -/
  | remotePending
  /-- Out of the group. -/
  | outside
deriving DecidableEq, Repr

/-- Who changed the membership, and why. -/
structure Provenance where
  actor : Option Handle
  reason : ChangeReason
  message : String
deriving DecidableEq, Repr

namespace Provenance

/-- No actor, no reason, no message. -/
def unstated : Provenance := ⟨none, .none, ""⟩

end Provenance

/-- A batch of membership changes. -/
structure MembershipChange where
  places : SortedMap Handle Place
  provenance : Provenance
deriving DecidableEq

namespace MembershipChange

/-- Sends the members of a set to one place. -/
def send (places : SortedMap Handle Place) (handles : SortedSet Handle) (p : Place) :
    SortedMap Handle Place :=
  handles.toList.foldl (fun places h => places.insert h p) places

/-- The batch that removes the departed and sends each of those present to its place, if it has
one. -/
def ofReadings (departed present : SortedSet Handle) (place? : Handle → Option Place)
    (provenance : Provenance) : MembershipChange where
  places :=
    present.toList.foldl (fun places h => (place? h).elim places (places.insert h ·))
      (send .empty departed .outside)
  provenance

/-- The batch that sends every handle of a set to one place. -/
def ofSet (handles : SortedSet Handle) (p : Place) (provenance : Provenance) :
    MembershipChange :=
  ⟨send .empty handles p, provenance⟩

/-- Whether four sets share no handle. -/
def disjoint (members departures localPending remotePending : SortedSet Handle) : Bool :=
  !members.intersects departures && !members.intersects localPending &&
    !members.intersects remotePending && !departures.intersects localPending &&
    !departures.intersects remotePending && !localPending.intersects remotePending

/-- The batch that makes some handles members, some pending, and removes some; none if a handle is
to go to two places. -/
def ofSets? (members departures localPending remotePending : SortedSet Handle)
    (provenance : Provenance) : Option MembershipChange :=
  if disjoint members departures localPending remotePending then
    some ⟨send (send (send (send .empty members .member) departures .outside) localPending
      .localPending) remotePending .remotePending, provenance⟩
  else none

/-- The handles a batch sends to `p`, ascending. -/
def sentTo (c : MembershipChange) (p : Place) : List Handle :=
  (c.places.toList.filter fun e => e.2 = p).map Prod.fst

/-- Whether a batch names nobody. -/
def isEmpty (c : MembershipChange) : Bool := c.places.isEmpty

end MembershipChange

/-- What a signal says about a batch that was carried out. -/
structure MembersChanged where
  message : String
  /-- Handles that became members. -/
  added : List Handle
  /-- Handles that left. -/
  removed : List Handle
  /-- Handles that became local-pending. -/
  localPending : List Handle
  /-- Handles that became remote-pending. -/
  remotePending : List Handle
  actor : Option Handle
  reason : ChangeReason
deriving DecidableEq, Repr

end Telepathy

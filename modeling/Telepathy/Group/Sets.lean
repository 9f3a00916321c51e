import Telepathy.Group.Basic

set_option autoImplicit false

/-!
# A group as it is stored

A `Membership` says at most one thing of each handle. What a group stores is less tidy: three sets
of handles, the records of how handles came to wait, and the owners, none of which knows of the
others. `GroupSets` is this state. A batch is carried out on it in nine passes, three for each set;
a pass walks over handles that the batch names and puts them into the set or takes them out of it,
and between two passes a handle may well be in two sets, or be on record and not wait.

That the sets are apart when a batch is done, and that its four sets were apart to begin with, are
promises. A checked build tests them and ends in a fault where one is broken, an unchecked build
carries on. Operations leave the state as it is at that point also when they end in a fault, so what
a fault comes too late for can be told.
-/

namespace Telepathy

/-- How a program was built. -/
inductive Build
  /-- Promises are tested as it runs. -/
  | checked
  /-- Promises are taken on trust. -/
  | unchecked
deriving DecidableEq, Repr

/-- One of the three sets of a group. -/
inductive Room
  | members
  /-- Those who wait for the local user. -/
  | localPending
  /-- Those whose own answer is awaited. -/
  | remotePending
deriving DecidableEq, Repr

/-- The state of a group, set by set, and the signals sent so far. -/
structure GroupSets where
  /-- The local user's handle in the group. -/
  self : Option Handle
  flags : GroupFlags
  members : SortedSet Handle
  localPending : SortedSet Handle
  /-- How handles came to wait for the local user. -/
  records : SortedMap Handle Provenance
  remotePending : SortedSet Handle
  /-- Owners of channel-specific handles, as far as they were recorded. -/
  owners : SortedMap Handle Handle
  signals : List Signal
deriving DecidableEq

namespace GroupSets

/-! ## Reading -/

/-- A group without members. -/
def new (self : Option Handle) (flags : GroupFlags) : GroupSets :=
  ⟨self, flags, .empty, .empty, .empty, .empty, .empty, []⟩

/-- The handles in one of the sets. -/
def room (g : GroupSets) : Room → SortedSet Handle
  | .members => g.members
  | .localPending => g.localPending
  | .remotePending => g.remotePending

/-- Those who wait for the local user, ascending, with what is on record about them. Of a handle
that is not on record nothing is stated. -/
def localPendingInfo (g : GroupSets) : List LocalPending :=
  g.localPending.toList.map fun h => ⟨h, (g.records.get? h).getD .unstated⟩

/-- Whether no two of the sets share a handle. -/
def apart (g : GroupSets) : Bool :=
  !g.members.intersects g.localPending && !g.members.intersects g.remotePending &&
    !g.localPending.intersects g.remotePending

/-! ## One handle -/

/-- Puts a handle into a set. Whoever is to wait goes on record, also if it waits already. -/
def put (provenance : Provenance) (r : Room) (g : GroupSets) (h : Handle) : GroupSets :=
  match r with
  | .members => { g with members := g.members.insert h }
  | .localPending =>
    { g with
      localPending := g.localPending.insert h
      records := g.records.insert h provenance }
  | .remotePending => { g with remotePending := g.remotePending.insert h }

/-- Takes a handle out of a set; whoever no longer waits goes off the record. -/
def drop (r : Room) (g : GroupSets) (h : Handle) : GroupSets :=
  match r with
  | .members => { g with members := g.members.erase h }
  | .localPending =>
    { g with
      localPending := g.localPending.erase h
      records := g.records.erase h }
  | .remotePending => { g with remotePending := g.remotePending.erase h }

end GroupSets

/-! ## The passes of a batch -/

/-- A batch under way: the state so far, and what was found to move. -/
structure Sweep where
  group : GroupSets
  /-- The handles that were put into a set and were not there, in the order of the pass. -/
  entered : Room → List Handle
  /-- The handles that were in a set and were taken out of it to leave the group. -/
  removed : SortedSet Handle

namespace Sweep

/-- A batch about to begin. -/
def start (g : GroupSets) : Sweep := ⟨g, fun _ => [], .empty⟩

/-- Puts a handle into a set. -/
def enter (provenance : Provenance) (r : Room) (s : Sweep) (h : Handle) : Sweep where
  group := s.group.put provenance r h
  entered := fun r' =>
    if r' = r ∧ h ∉ s.group.room r then s.entered r' ++ [h] else s.entered r'
  removed := s.removed

/-- Takes a handle out of a set because it is on its way to another. Nobody is told of that. -/
def quit (r : Room) (s : Sweep) (h : Handle) : Sweep :=
  { s with group := s.group.drop r h }

/-- Takes a handle out of a set because it is to leave the group. -/
def leave (r : Room) (s : Sweep) (h : Handle) : Sweep where
  group := s.group.drop r h
  entered := s.entered
  removed := if h ∈ s.group.room r then s.removed.insert h else s.removed

/-- The nine passes of a batch. -/
def passes (g : GroupSets) (joining leaving applying invited : SortedSet Handle)
    (provenance : Provenance) : Sweep :=
  let s := joining.toList.foldl (enter provenance .members) (start g)
  let s := leaving.toList.foldl (leave .members) s
  let s := (applying.toList ++ invited.toList).foldl (quit .members) s
  let s := applying.toList.foldl (enter provenance .localPending) s
  let s := (joining.toList ++ invited.toList).foldl (quit .localPending) s
  let s := leaving.toList.foldl (leave .localPending) s
  let s := invited.toList.foldl (enter provenance .remotePending) s
  let s := (joining.toList ++ applying.toList).foldl (quit .remotePending) s
  leaving.toList.foldl (leave .remotePending) s

/-- Forgets the owners of those who left the group. -/
def forgetOwners (s : Sweep) : Sweep :=
  { s with group.owners := s.removed.toList.foldl .erase s.group.owners }

/-- The signal for what was found to move; none if nothing was. -/
def announcement (s : Sweep) (provenance : Provenance) : Option Signal :=
  if s.entered .members = [] ∧ s.removed.isEmpty ∧ s.entered .localPending = [] ∧
      s.entered .remotePending = [] then none
  else
    some (.membersChanged
      { message := provenance.message
        added := s.entered .members
        removed := s.removed.toList
        localPending := s.entered .localPending
        remotePending := s.entered .remotePending
        actor := provenance.actor
        reason := provenance.reason })

end Sweep

namespace GroupSets

/-! ## Operations

Each returns whether anything changed that clients are told of.
-/

/-- Tests a promise, in a build that does so. -/
def promise (build : Build) (kept : Bool) (fault : Fault) : EStateM Fault GroupSets Unit :=
  if build = .checked ∧ kept = false then throw fault else pure ()

/-- Sends a signal, if there is one. -/
def emit (signal : Option Signal) : EStateM Fault GroupSets Bool := do
  modify fun g => { g with signals := g.signals ++ signal.toList }
  return signal.isSome

/-- Carries out a batch of four sets. -/
def changeMembers (build : Build) (joining leaving applying invited : SortedSet Handle)
    (provenance : Provenance) : EStateM Fault GroupSets Bool := do
  promise build (MembershipChange.disjoint joining leaving applying invited) .overlappingChange
  let s := (Sweep.passes (← get) joining leaving applying invited provenance).forgetOwners
  set s.group
  promise build s.group.apart .overlappingSets
  emit (s.announcement provenance)

/-- Removes everyone from all three sets by one batch. -/
def removeAll (build : Build) (reason : ChangeReason) : EStateM Fault GroupSets Bool := do
  let g ← get
  let everyone := (g.members.union g.localPending).union g.remotePending
  changeMembers build .empty everyone .empty .empty ⟨none, reason, ""⟩

/-- Sets some flags and clears others; that no flag is both is tested in every build. -/
def changeFlags (add remove : GroupFlags) : EStateM Fault GroupSets Bool := do
  if add.inter remove ≠ .none then throw (.contradictoryFlags (add.inter remove))
  let g ← get
  let added := add.diff g.flags
  let removed := remove.inter g.flags
  if added = .none ∧ removed = .none then return false
  set { g with flags := (g.flags.union added).diff removed }
  emit (some (.groupFlagsChanged added removed))

/-- Records who owns a channel-specific handle. -/
def addOwner (h owner : Handle) : EStateM Fault GroupSets Bool := do
  modify fun g => { g with owners := g.owners.insert h owner }
  return false

/-- Carries out one operation. -/
def perform (build : Build) : GroupOperation → EStateM Fault GroupSets Bool
  | .change joining leaving applying invited provenance =>
    changeMembers build joining leaving applying invited provenance
  | .removeAll reason => removeAll build reason
  | .changeFlags add remove => changeFlags add remove
  | .addOwner h owner => addOwner h owner

/-- Carries out a list of operations, up to the first fault. -/
def run (build : Build) (ops : List GroupOperation) : EStateM Fault GroupSets Unit :=
  ops.forM fun op => discard (perform build op)

end GroupSets

end Telepathy

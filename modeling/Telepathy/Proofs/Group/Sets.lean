import Telepathy.Proofs.Group.Operations
import Telepathy.Proofs.Group.Passes
import Telepathy.Proofs.Sorted.Entries

set_option autoImplicit false

/-!
# The three sets stay apart

While a batch is under way its handles may be in two sets at once. When it is done, each handle it
names is in one set at most, because every set loses what the batch puts elsewhere; the others are
where they were. So the sets of a group stay apart over whole runs, and a build that tests whether
they are never finds that they are not. Likewise, a handle goes on record and off it with the second
set, so those are on record who wait for the local user, with the provenance of the latest batch
that made them wait.

None of this needs that the four sets of a batch do not overlap. A checked build stops at a batch
whose sets do, before it has done anything; an unchecked build carries it out like any other.
-/

namespace Telepathy

namespace GroupOperation

/-- The provenance that an operation states for `h`, if it makes `h` wait for the local user. -/
def stated? (h : Handle) : GroupOperation → Option Provenance
  | change _ _ applying _ provenance => if h ∈ applying then some provenance else none
  | removeAll _ | changeFlags _ _ | addOwner _ _ => none

/-- The provenance that the latest of the operations that make `h` wait states for it. -/
def latest? (ops : List GroupOperation) (h : Handle) : Option Provenance :=
  ops.reverse.findSome? (stated? h)

theorem latest?_append_singleton (ops : List GroupOperation) (op : GroupOperation) (h : Handle) :
    latest? (ops ++ [op]) h = (op.stated? h).or (latest? ops h) := by
  rw [latest?, List.reverse_append, List.reverse_singleton, List.singleton_append,
    List.findSome?_cons]
  cases op.stated? h with
  | none => rfl
  | some provenance => rfl

end GroupOperation

namespace GroupSets

variable {build : Build} {g : GroupSets} {joining leaving applying invited : SortedSet Handle}
  {provenance : Provenance} {h : Handle}

/-! ## After a batch -/

/-- The state after the passes of a batch. -/
def swept (g : GroupSets) (joining leaving applying invited : SortedSet Handle)
    (provenance : Provenance) : GroupSets :=
  (Sweep.passes g joining leaving applying invited provenance).forgetOwners.group

theorem mem_room_swept {r : Room} :
    h ∈ (g.swept joining leaving applying invited provenance).room r ↔
      (h ∈ g.room r ∨ h ∈ r.sent joining applying invited) ∧ h ∉ leaving ∧
        ∀ r', r' ≠ r → h ∉ r'.sent joining applying invited := by
  have hroom : (g.swept joining leaving applying invited provenance).room r =
      (Sweep.passes g joining leaving applying invited provenance).group.room r := by
    cases r <;> rfl
  rw [hroom, Sweep.mem_room_passes]

theorem get?_records_swept :
    (g.swept joining leaving applying invited provenance).records.get? h =
      if h ∈ joining ∨ h ∈ leaving ∨ h ∈ invited then none
      else if h ∈ applying then some provenance
      else g.records.get? h :=
  Sweep.get?_records_passes

/-- Those who were found to leave have no owner any more, the others keep theirs. -/
theorem get?_owners_swept :
    (g.swept joining leaving applying invited provenance).owners.get? h =
      if h ∈ (Sweep.passes g joining leaving applying invited provenance).removed then none
      else g.owners.get? h := by
  rw [swept, Sweep.forgetOwners, Sweep.frame_passes.2.2.1]
  exact (SortedMap.get?_foldl_erase id _ _ h).trans (by rw [List.map_id]; rfl)

/-- `g'` is what a batch makes of `g`: each set gains those the batch puts there and loses the
others that it names. -/
structure Rearranged (g g' : GroupSets)
    (joining leaving applying invited : SortedSet Handle) : Prop where
  members :
    g'.members = (((g.members.union joining).diff leaving).diff applying).diff invited
  localPending :
    g'.localPending = (((g.localPending.union applying).diff joining).diff leaving).diff invited
  remotePending :
    g'.remotePending = (((g.remotePending.union invited).diff joining).diff leaving).diff applying

theorem rearranged_swept (g : GroupSets) (joining leaving applying invited : SortedSet Handle)
    (provenance : Provenance) :
    g.Rearranged (g.swept joining leaving applying invited provenance)
      joining leaving applying invited where
  members := SortedSet.ext_mem fun h => by
    have hmem : h ∈ (g.swept joining leaving applying invited provenance).members ↔ _ :=
      mem_room_swept (r := .members)
    rw [hmem, Room.forall_iff]
    simp [Room.sent, room, and_assoc]
  localPending := SortedSet.ext_mem fun h => by
    have hmem : h ∈ (g.swept joining leaving applying invited provenance).localPending ↔ _ :=
      mem_room_swept (r := .localPending)
    rw [hmem, Room.forall_iff]
    simp [Room.sent, room, and_assoc, and_left_comm]
  remotePending := SortedSet.ext_mem fun h => by
    have hmem : h ∈ (g.swept joining leaving applying invited provenance).remotePending ↔ _ :=
      mem_room_swept (r := .remotePending)
    rw [hmem, Room.forall_iff]
    simp [Room.sent, room, and_assoc, and_left_comm]

/-! ## Sound sets -/

/-- No handle is in two sets, and those are on record who wait for the local user. -/
structure Sound (g : GroupSets) : Prop where
  apart : ∀ {h : Handle} {r r' : Room}, h ∈ g.room r → h ∈ g.room r' → r = r'
  recorded : ∀ {h : Handle}, g.records.contains h = true ↔ h ∈ g.localPending

theorem sound_new (self : Option Handle) (flags : GroupFlags) : (new self flags).Sound where
  apart {h r r'} hr := by cases r <;> exact absurd hr (SortedSet.not_mem_empty h)
  recorded {h} := ⟨nofun, fun hh => absurd hh (SortedSet.not_mem_empty h)⟩

namespace Sound

/-- A batch leaves the sets sound, also if its own sets overlap. -/
theorem swept (hg : g.Sound) :
    (g.swept joining leaving applying invited provenance).Sound where
  apart {h r r'} hr hr' := by
    obtain ⟨hin, -, hsole⟩ := mem_room_swept.mp hr
    obtain ⟨hin', -, hsole'⟩ := mem_room_swept.mp hr'
    refine Decidable.byContradiction fun hne => hne ?_
    -- The batch puts the handle into neither set, so it was in both before.
    exact hg.apart (hin.resolve_right (hsole' r hne)) (hin'.resolve_right (hsole r' (Ne.symm hne)))
  recorded {h} := by
    rw [(g.rearranged_swept joining leaving applying invited provenance).localPending,
      SortedMap.contains, get?_records_swept]
    simp only [SortedSet.mem_diff, SortedSet.mem_union, ← hg.recorded, SortedMap.contains]
    -- Whoever the batch names outside its third set goes off the record and does not wait.
    by_cases hout : h ∈ joining ∨ h ∈ leaving ∨ h ∈ invited
    · obtain ha | hr | hp := hout
      · simp [ha]
      · simp [hr]
      · simp [hp]
    · by_cases hl : h ∈ applying <;> simp_all

theorem exclusive (hg : g.Sound) (h : Handle) :
    (h ∈ g.members → h ∉ g.localPending ∧ h ∉ g.remotePending) ∧
      (h ∈ g.localPending → h ∉ g.remotePending) := by
  have hapart : ∀ r r' : Room, r ≠ r' → h ∈ g.room r → h ∉ g.room r' := fun _ _ hne hr hr' =>
    hne (hg.apart hr hr')
  exact ⟨fun hm => ⟨hapart .members .localPending (by decide) hm,
    hapart .members .remotePending (by decide) hm⟩,
    hapart .localPending .remotePending (by decide)⟩

theorem apart_eq_true (hg : g.Sound) : g.apart = true := by
  simp only [GroupSets.apart, Bool.and_eq_true, Bool.not_eq_true',
    SortedSet.intersects_eq_false_iff]
  exact ⟨⟨fun h hm => ((hg.exclusive h).1 hm).1, fun h hm => ((hg.exclusive h).1 hm).2⟩,
    fun h => (hg.exclusive h).2⟩

end Sound

/-! ## Operations -/

theorem promise_of_broken {kept : Bool} {fault : Fault} (h : build = .checked ∧ kept = false) :
    promise build kept fault g = .error fault g := by
  rw [promise, if_pos h]
  rfl

theorem promise_of_kept {kept : Bool} {fault : Fault} (h : ¬ (build = .checked ∧ kept = false)) :
    promise build kept fault g = .ok () g := by
  rw [promise, if_neg h]
  rfl

/-- The answer to a batch that is carried out, and the state it leaves. -/
def afterBatch (g : GroupSets) (joining leaving applying invited : SortedSet Handle)
    (provenance : Provenance) : EStateM.Result Fault GroupSets Bool :=
  let s := (Sweep.passes g joining leaving applying invited provenance).forgetOwners
  let signal := s.announcement provenance
  .ok signal.isSome { s.group with signals := s.group.signals ++ signal.toList }

/-- A batch is refused before anything is done, or carried out to its end: on sound sets the second
test is never failed. -/
theorem Sound.changeMembers (hg : g.Sound) :
    GroupSets.changeMembers build joining leaving applying invited provenance g =
      if build = .checked ∧ MembershipChange.disjoint joining leaving applying invited = false
      then .error .overlappingChange g
      else g.afterBatch joining leaving applying invited provenance := by
  by_cases hoverlap :
      build = .checked ∧ MembershipChange.disjoint joining leaving applying invited = false
  · rw [if_pos hoverlap, GroupSets.changeMembers]
    exact EStateM.bind_of_error (promise_of_broken hoverlap)
  · have hapart : ¬ (build = .checked ∧
        (g.swept joining leaving applying invited provenance).apart = false) := by
      simp [hg.swept.apart_eq_true]
    -- The second test sees the sets after the passes, which are apart.
    rw [if_neg hoverlap, GroupSets.changeMembers, EStateM.bind_of_ok (promise_of_kept hoverlap)]
    exact EStateM.bind_of_ok (promise_of_kept hapart)

theorem disjoint_departures (everyone : SortedSet Handle) :
    MembershipChange.disjoint .empty everyone .empty .empty = true :=
  MembershipChange.disjoint_iff.mpr fun h => by simp

/-- Everyone is removed by a batch, and this one is never refused. -/
theorem Sound.removeAll (hg : g.Sound) (reason : ChangeReason) :
    GroupSets.removeAll build reason g =
      g.afterBatch .empty ((g.members.union g.localPending).union g.remotePending) .empty .empty
        ⟨none, reason, ""⟩ := by
  have hbatch : GroupSets.removeAll build reason g =
      GroupSets.changeMembers build .empty ((g.members.union g.localPending).union g.remotePending)
        .empty .empty ⟨none, reason, ""⟩ g := rfl
  rw [hbatch, hg.changeMembers, disjoint_departures, if_neg (by simp)]

/-- The answer to a change of flags that does not contradict itself, and the state it leaves. -/
theorem changeFlags_of_none {add remove : GroupFlags} (hnone : add.inter remove = .none) :
    changeFlags add remove g =
      if add.diff g.flags = .none ∧ remove.inter g.flags = .none then .ok false g
      else .ok true
        { g with
          flags := (g.flags.union (add.diff g.flags)).diff (remove.inter g.flags)
          signals := g.signals ++
            [.groupFlagsChanged (add.diff g.flags) (remove.inter g.flags)] } := by
  have hchange : changeFlags add remove g =
      (if add.diff g.flags = .none ∧ remove.inter g.flags = .none then pure false
      else do
        set { g with flags := (g.flags.union (add.diff g.flags)).diff (remove.inter g.flags) }
        emit (some (.groupFlagsChanged (add.diff g.flags) (remove.inter g.flags))) :
        EStateM Fault GroupSets Bool) g := by
    rw [changeFlags, if_neg (not_not_intro hnone)]
    rfl
  rw [hchange]
  split <;> rfl

theorem changeFlags_of_both {add remove : GroupFlags} (hboth : add.inter remove ≠ .none) :
    changeFlags add remove g = .error (.contradictoryFlags (add.inter remove)) g := by
  rw [changeFlags, if_pos hboth]
  rfl

/-! ## One step -/

/-- Whoever is on record is so with the provenance that the latest operation stated. -/
def Remembers (g : GroupSets) (ops : List GroupOperation) : Prop :=
  ∀ h provenance, g.records.get? h = some provenance →
    GroupOperation.latest? ops h = some provenance

section Remembers

variable {ops : List GroupOperation} {op : GroupOperation}

theorem Remembers.swept (hg : g.Remembers ops)
    (hop : ∀ h, op.stated? h = if h ∈ applying then some provenance else none) :
    (g.swept joining leaving applying invited provenance).Remembers (ops ++ [op]) := by
  intro h stated hget
  rw [get?_records_swept, Option.ite_none_left_eq_some] at hget
  rw [GroupOperation.latest?_append_singleton, hop]
  by_cases hl : h ∈ applying
  · rw [if_pos hl] at hget ⊢
    exact hget.2
  · rw [if_neg hl] at hget ⊢
    exact hg h stated hget.2

end Remembers

/-! ## Runs -/

theorem run_cons (op : GroupOperation) (ops : List GroupOperation) (g : GroupSets) :
    run build (op :: ops) g =
      match perform build op g with
      | .ok _ g' => run build ops g'
      | .error fault g' => .error fault g' := by
  have hrun : run build (op :: ops) = discard (perform build op) >>= fun _ => run build ops := rfl
  rw [hrun]
  cases hop : perform build op g with
  | ok changed g' => exact EStateM.bind_of_ok (EStateM.bind_of_ok hop)
  | error fault g' => exact EStateM.bind_of_error (EStateM.bind_of_error hop)

/-- What a group keeps of the operations that made it. -/
structure Records (g : GroupSets) (ops : List GroupOperation) : Prop where
  /-- Nobody is in two sets. -/
  apart : g.members.intersects g.localPending = false ∧
    g.members.intersects g.remotePending = false ∧
    g.localPending.intersects g.remotePending = false
  /-- There is a record of each handle that waits, and of no other. -/
  recorded : ∀ h, g.records.contains h = true ↔ h ∈ g.localPending
  /-- Those who wait are listed once each, by ascending handle. -/
  listed : g.localPendingInfo.map LocalPending.handle = g.localPending.toList
  /-- The list says of each of them what the latest batch said that made it wait. -/
  latest : ∀ p ∈ g.localPendingInfo, GroupOperation.latest? ops p.handle = some p.provenance

theorem Sound.records {ops : List GroupOperation} (hg : g.Sound) (hops : g.Remembers ops) :
    g.Records ops where
  apart := by
    have hapart := hg.apart_eq_true
    simpa [GroupSets.apart, and_assoc] using hapart
  recorded h := hg.recorded
  listed := by
    rw [localPendingInfo, List.map_map]
    exact List.map_id _
  latest p hp := by
    obtain ⟨h, hh, rfl⟩ := List.mem_map.mp hp
    obtain ⟨provenance, hget⟩ := Option.isSome_iff_exists.mp (hg.recorded.mpr hh)
    rw [hops h provenance hget, hget, Option.getD_some]

/-- A batch that takes one handle in and out is refused, and the group is as it was. -/
example :
    run .checked
      [.change (.ofList [.first]) .empty .empty .empty .unstated,
        .change (.ofList [.first]) (.ofList [.first]) .empty .empty .unstated] (new none .none) =
      .error .overlappingChange
        { new none .none with
          members := .ofList [.first]
          signals := [.membersChanged ⟨"", [.first], [], [], [], none, .none⟩] } :=
  rfl

end GroupSets

end Telepathy

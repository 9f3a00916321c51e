import Telepathy.Proofs.Group.Owners
import Telepathy.Proofs.Group.References
import Telepathy.Proofs.Group.Sets

set_option autoImplicit false

/-!
# The stored sets are a membership

Three sets that are apart, with a record of each handle in the second, say what each handle is, so
they represent a `Membership`. The passes of a batch and the one walk over its handles then do the
same: the main law relates whole runs, of the stored sets in a build of either kind and of the
membership, which end with the same signals, the same answers to whoever reads the group, and the
same references held. Whatever is proved of memberships is thereby proved of what is stored.
-/

namespace Telepathy

namespace Membership

/-- A batch moves somebody if there is a place that somebody is moved to. -/
theorem isEmpty_iff_movedTo {l : List (Handle × Place)} :
    l.isEmpty = true ↔ ∀ p, movedTo l p = [] := by
  simp only [List.isEmpty_iff, List.eq_nil_iff_forall_not_mem, mem_movedTo, Prod.forall]
  exact forall_comm

/-- Those whom a batch moves to a place are listed in the order of the set that they make up. -/
theorem movedTo_moves {m : Membership} {c : MembershipChange} {p : Place} {s : SortedSet Handle}
    (hs : ∀ h, h ∈ s ↔ c.places.get? h = some p ∧ m.placeOf h ≠ p) :
    movedTo (m.moves c) p = s.toList := by
  let moved : SortedSet Handle :=
    ⟨movedTo (m.moves c) p, ((c.places.ascending.filter _).filter _).map _ fun _ _ h => h⟩
  have hmoved : moved = s := SortedSet.ext_mem fun h => by
    rw [hs, SortedSet.mem_def, mem_movedTo, mem_moves]
  rw [← hmoved]

end Membership

namespace GroupSets

variable {build : Build} {g : GroupSets} {m : Membership}
  {joining leaving applying invited : SortedSet Handle} {provenance : Provenance}
  {c : MembershipChange} {h : Handle}

/-- What a handle is in a group, as far as the three sets and the records tell. -/
def standing? (g : GroupSets) (h : Handle) : Option Standing :=
  if h ∈ g.members then some .member
  else if h ∈ g.localPending then (g.records.get? h).map .localPending
  else if h ∈ g.remotePending then some .remotePending
  else none

/-- What is stored in `g` is the membership `m`. -/
structure Represents (g : GroupSets) (m : Membership) : Prop where
  sound : g.Sound
  self : m.self = g.self
  flags : m.flags = g.flags
  standings : ∀ h, m.standings.get? h = g.standing? h
  owners : m.owners = g.owners

/-! ## Reading -/

theorem Sound.mem_localPending_iff (hg : g.Sound) :
    h ∈ g.localPending ↔ ∃ provenance, g.records.get? h = some provenance := by
  rw [← hg.recorded, SortedMap.contains, Option.isSome_iff_exists]

namespace Represents

theorem mem_room (hg : g.Represents m) {r : Room} : h ∈ g.room r ↔ m.placeOf h = r.place := by
  obtain ⟨hmembers, hpending⟩ := hg.sound.exclusive h
  rw [Membership.placeOf, hg.standings, standing?]
  by_cases hmember : h ∈ g.members
  · cases r <;> simp [room, Room.place, Standing.place, hmember, hmembers hmember]
  · by_cases hlocal : h ∈ g.localPending
    · obtain ⟨provenance, hget⟩ := hg.sound.mem_localPending_iff.mp hlocal
      cases r <;> simp [room, Room.place, Standing.place, hmember, hlocal, hpending hlocal, hget]
    · by_cases hremote : h ∈ g.remotePending
      · cases r <;> simp [room, Room.place, Standing.place, hmember, hlocal, hremote]
      · cases r <;> simp [room, Room.place, hmember, hlocal, hremote]

theorem members (hg : g.Represents m) : m.members = g.members :=
  SortedSet.ext_mem fun _ =>
    (Membership.mem_inPlace (by decide)).trans (hg.mem_room (r := .members)).symm

theorem localPending (hg : g.Represents m) : m.localPending = g.localPending :=
  SortedSet.ext_mem fun _ =>
    (Membership.mem_inPlace (by decide)).trans (hg.mem_room (r := .localPending)).symm

theorem remotePending (hg : g.Represents m) : m.remotePending = g.remotePending :=
  SortedSet.ext_mem fun _ =>
    (Membership.mem_inPlace (by decide)).trans (hg.mem_room (r := .remotePending)).symm

theorem get?_eq_localPending (hg : g.Represents m) {provenance : Provenance} :
    m.standings.get? h = some (.localPending provenance) ↔ g.records.get? h = some provenance := by
  rw [hg.standings, standing?]
  constructor
  · intro hstanding
    split at hstanding
    · cases hstanding
    · split at hstanding
      · obtain ⟨stated, hget, hstated⟩ := Option.map_eq_some_iff.mp hstanding
        cases hstated
        exact hget
      · split at hstanding <;> cases hstanding
  · intro hget
    have hlocal := hg.sound.mem_localPending_iff.mpr ⟨provenance, hget⟩
    have hout : h ∉ g.members := fun hmember => ((hg.sound.exclusive h).1 hmember).1 hlocal
    rw [if_neg hout, if_pos hlocal, hget, Option.map_some]

theorem localPendingInfo (hg : g.Represents m) : m.localPendingInfo = g.localPendingInfo := by
  have hlist : m.localPendingInfo = (m.localPendingInfo.map LocalPending.handle).map
      fun h => ⟨h, (g.records.get? h).getD .unstated⟩ := by
    rw [List.map_map]
    refine ((List.map_congr_left fun p hp => ?_).trans (List.map_id _)).symm
    have hget := hg.get?_eq_localPending.mp (Membership.mem_localPendingInfo.mp hp)
    simp [hget]
  rw [hlist, Membership.handles_localPendingInfo, hg.localPending, GroupSets.localPendingInfo]

/-! ## A batch -/

/-- Those are found to leave who are to leave and are in the group. -/
theorem mem_removed (hg : g.Represents m)
    (hc : MembershipChange.ofSets? joining leaving applying invited provenance = some c) :
    h ∈ (Sweep.passes g joining leaving applying invited provenance).removed ↔
      h ∈ leaving ∧ m.contains h = true := by
  obtain ⟨hjoin, hleave, -⟩ :=
    MembershipChange.disjoint_iff.mp (MembershipChange.ofSets?_eq_some_iff.mp hc).1 h
  have hcontains : m.contains h = true ↔ h ∈ m.members ∨ h ∈ m.localPending ∨ h ∈ m.remotePending :=
    SortedMap.mem_keys.symm.trans Membership.mem_keys_standings
  rw [Sweep.mem_removed_passes, hcontains, hg.members, hg.localPending, hg.remotePending]
  refine and_congr_right fun hr => ?_
  have ha : h ∉ joining := fun ha => (hjoin ha).1 hr
  simp [ha, hleave hr]

theorem swept (hg : g.Represents m)
    (hc : MembershipChange.ofSets? joining leaving applying invited provenance = some c) :
    (g.swept joining leaving applying invited provenance).Represents (m.change c).membership where
  sound := hg.sound.swept
  self := (Membership.change_self m c).trans (hg.self.trans Sweep.frame_passes.1.symm)
  flags := (Membership.change_flags m c).trans (hg.flags.trans Sweep.frame_passes.2.1.symm)
  standings h := by
    have hswept := g.rearranged_swept joining leaving applying invited provenance
    obtain ⟨hjoin, hleave, happly⟩ :=
      MembershipChange.disjoint_iff.mp (MembershipChange.ofSets?_eq_some_iff.mp hc).1 h
    rw [Membership.change_get?, MembershipChange.get?_ofSets? hc,
      MembershipChange.provenance_ofSets? hc, hg.standings, standing?, standing?, hswept.members,
      hswept.localPending, hswept.remotePending, get?_records_swept]
    -- The four sets of the batch, in the order in which the membership looks a handle up.
    by_cases ha : h ∈ joining
    · simp [ha, hjoin ha, Standing.ofPlace?]
    · by_cases hr : h ∈ leaving
      · simp [ha, hr, Standing.ofPlace?]
      · by_cases hl : h ∈ applying
        · simp [ha, hr, hl, happly hl, Standing.ofPlace?]
        · by_cases hp : h ∈ invited <;> simp [ha, hr, hl, hp, Standing.ofPlace?]
  owners := by
    refine SortedMap.ext_get? fun h => ?_
    rw [Membership.get?_owners_change_ofSets? hc, get?_owners_swept, hg.owners]
    exact ite_congr (propext (hg.mem_removed hc).symm) (fun _ => rfl) fun _ => rfl

/-- A batch tells of those whom it puts into a set and who were not there. -/
theorem entered (hg : g.Represents m)
    (hc : MembershipChange.ofSets? joining leaving applying invited provenance = some c)
    (r : Room) :
    (Sweep.passes g joining leaving applying invited provenance).entered r =
      Membership.movedTo (m.moves c) r.place := by
  rw [Sweep.entered_passes]
  refine (Membership.movedTo_moves fun h => ?_).symm
  rw [SortedSet.mem_filter, decide_eq_true_iff, hg.mem_room,
    MembershipChange.get?_ofSets?_eq_place hc]

theorem removed (hg : g.Represents m)
    (hc : MembershipChange.ofSets? joining leaving applying invited provenance = some c) :
    (Sweep.passes g joining leaving applying invited provenance).removed.toList =
      Membership.movedTo (m.moves c) .outside := by
  refine (Membership.movedTo_moves fun h => ?_).symm
  rw [hg.mem_removed hc, MembershipChange.get?_ofSets?_eq_outside hc, Membership.contains_iff]

theorem announcement (hg : g.Represents m)
    (hc : MembershipChange.ofSets? joining leaving applying invited provenance = some c) :
    (Sweep.passes g joining leaving applying invited provenance).forgetOwners.announcement
      provenance = (m.change c).signal := by
  let s := (Sweep.passes g joining leaving applying invited provenance).forgetOwners
  have hentered : ∀ r, s.entered r = Membership.movedTo (m.moves c) r.place := hg.entered hc
  have hremoved : s.removed.toList = Membership.movedTo (m.moves c) .outside := hg.removed hc
  have hnobody : (s.entered .members = [] ∧ s.removed.isEmpty ∧ s.entered .localPending = [] ∧
      s.entered .remotePending = []) ↔ (m.moves c).isEmpty = true := by
    rw [hentered, hentered, hentered, SortedSet.isEmpty, hremoved, List.isEmpty_iff,
      Membership.isEmpty_iff_movedTo]
    constructor
    · rintro ⟨ha, hr, hl, hp⟩ p
      cases p <;> assumption
    · exact fun hnobody => ⟨hnobody _, hnobody _, hnobody _, hnobody _⟩
  rw [Membership.change_signal, Membership.announcement, MembershipChange.provenance_ofSets? hc]
  refine ite_congr (propext hnobody) (fun _ => rfl) fun _ => ?_
  rw [hremoved, hentered, hentered, hentered]
  rfl

/-- A batch is answered and signalled as that of the membership, and what is stored stays the
membership. -/
theorem afterBatch (hg : g.Represents m)
    (hc : MembershipChange.ofSets? joining leaving applying invited provenance = some c) :
    ∃ g', g.afterBatch joining leaving applying invited provenance = .ok (m.change c).changed g' ∧
      g'.Represents (m.change c).membership ∧
      g'.signals = g.signals ++ (m.change c).signal.toList := by
  rw [GroupSets.afterBatch]
  dsimp only
  rw [hg.announcement hc]
  obtain ⟨⟨hapart, hrecorded⟩, hself, hflags, hstandings, howners⟩ := hg.swept hc
  refine ⟨_, rfl, ⟨⟨hapart, hrecorded⟩, hself, hflags, hstandings, howners⟩, ?_⟩
  exact congrArg (· ++ _) Sweep.frame_passes.2.2.2

/-! ## Operations -/

theorem everyone (hg : g.Represents m) :
    (g.members.union g.localPending).union g.remotePending = m.everyone := by
  refine SortedSet.ext_mem fun h => ?_
  rw [SortedSet.mem_union, SortedSet.mem_union, or_assoc, ← hg.members, ← hg.localPending,
    ← hg.remotePending, ← Membership.mem_keys_standings, Membership.everyone, SortedMap.mem_keySet,
    SortedMap.mem_keys, SortedMap.contains, Option.isSome_iff_exists]

/-- Whatever the membership does, the stored sets do, in a build of either kind. -/
theorem perform (hg : g.Represents m) (build : Build) {op : GroupOperation} {u : GroupUpdate}
    (hu : m.perform op = .ok u) :
    ∃ g', GroupSets.perform build op g = .ok u.changed g' ∧ g'.Represents u.membership ∧
      g'.signals = g.signals ++ u.signal.toList := by
  cases op with
  | change joining leaving applying invited provenance =>
    obtain ⟨c, hc, rfl⟩ := Membership.perform_change_eq_ok.mp hu
    have hdisjoint := (MembershipChange.ofSets?_eq_some_iff.mp hc).1
    rw [GroupSets.perform, hg.sound.changeMembers, if_neg (by simp [hdisjoint])]
    exact hg.afterBatch hc
  | removeAll reason =>
    cases hu
    rw [GroupSets.perform, hg.sound.removeAll, hg.everyone]
    exact hg.afterBatch (if_pos (disjoint_departures _))
  | changeFlags add remove =>
    have hnone : add.inter remove = .none := by
      obtain ⟨hnone, -⟩ | ⟨-, herror⟩ := m.changeFlags_cases add remove
      · exact hnone
      · cases hu.symm.trans herror
    rw [Membership.perform, Membership.changeFlags, if_neg (not_not_intro hnone)] at hu
    rw [GroupSets.perform, changeFlags_of_none hnone, ← hg.flags]
    by_cases hsame : add.diff m.flags = .none ∧ remove.inter m.flags = .none
    · cases hu.symm.trans (if_pos hsame)
      rw [if_pos hsame]
      exact ⟨g, rfl, hg, (List.append_nil _).symm⟩
    · cases hu.symm.trans (if_neg hsame)
      rw [if_neg hsame]
      exact ⟨_, rfl, ⟨⟨hg.sound.apart, hg.sound.recorded⟩, hg.self, rfl, hg.standings, hg.owners⟩,
        rfl⟩
  | addOwner h owner =>
    cases hu
    exact ⟨_, rfl, ⟨⟨hg.sound.apart, hg.sound.recorded⟩, hg.self, hg.flags, hg.standings,
      congrArg (·.insert h owner) hg.owners⟩, (List.append_nil _).symm⟩

/-- A checked build ends in the faults of the membership, and has done nothing. -/
theorem perform_error (hg : g.Represents m) {op : GroupOperation} {fault : Fault}
    (hu : m.perform op = .error fault) :
    GroupSets.perform .checked op g = .error fault g := by
  cases op with
  | change joining leaving applying invited provenance =>
    rw [Membership.perform] at hu
    cases hc : MembershipChange.ofSets? joining leaving applying invited provenance with
    | some c =>
      rw [hc] at hu
      cases hu
    | none =>
      rw [hc] at hu
      cases hu
      rw [GroupSets.perform, hg.sound.changeMembers,
        if_pos ⟨rfl, MembershipChange.ofSets?_eq_none_iff.mp hc⟩]
  | changeFlags add remove =>
    obtain ⟨-, u, hok⟩ | ⟨hboth, herror⟩ := m.changeFlags_cases add remove
    · cases hu.symm.trans hok
    · cases hu.symm.trans herror
      exact changeFlags_of_both hboth
  | removeAll _ | addOwner _ _ => cases hu

end Represents

/-! ## References -/

/-- The handles a group holds, once for each reference. -/
def holds (g : GroupSets) : List Handle :=
  g.self.toList ++ g.members.toList ++ g.localPending.toList ++ g.remotePending.toList ++
    g.records.values.flatMap (·.actor.toList) ++ g.owners.values

/-- The records are those that are listed. -/
theorem Sound.values_records (hg : g.Sound) :
    g.records.values = g.localPendingInfo.map LocalPending.provenance := by
  let listed : SortedMap Handle Provenance :=
    ⟨g.localPending.toList.map fun h => (h, (g.records.get? h).getD .unstated),
      g.localPending.ascending.map _ fun _ _ h => h⟩
  have hrecords : g.records = listed := SortedMap.ext_get? fun h => Option.ext fun provenance => by
    rw [SortedMap.get?_eq_some_iff (m := listed), List.mem_map]
    constructor
    · intro hget
      exact ⟨h, hg.mem_localPending_iff.mpr ⟨provenance, hget⟩, by rw [hget]; rfl⟩
    · rintro ⟨h', hh', heq⟩
      cases heq
      obtain ⟨provenance, hget⟩ := hg.mem_localPending_iff.mp hh'
      rw [hget, Option.getD_some]
  rw [hrecords, SortedMap.values, localPendingInfo, List.map_map, List.map_map]
  rfl

theorem count_actors (l : List LocalPending) (h : Handle) :
    ((l.map LocalPending.provenance).flatMap (·.actor.toList)).count h =
      l.countP fun p => p.provenance.actor = some h := by
  induction l with
  | nil => rfl
  | cons p l ih =>
    rw [List.map_cons, List.flatMap_cons, List.count_append, ih, Option.count_toList,
      List.countP_cons, Nat.add_comm]
    simp only [decide_eq_true_eq]

/-- The stored sets hold what the membership holds. -/
theorem Represents.holds_perm (hg : g.Represents m) : g.holds.Perm m.holds := by
  refine List.perm_iff_count.mpr fun h => ?_
  have hcount : ∀ s : SortedSet Handle, s.toList.count h = if h ∈ s then 1 else 0 := fun s =>
    s.nodup.count
  -- The membership counts a standing, the sets are counted one by one; a handle is in one of them.
  have hplaced : (if h ∈ g.members ∨ h ∈ g.localPending ∨ h ∈ g.remotePending then 1 else 0) =
      (if h ∈ g.members then 1 else 0) + (if h ∈ g.localPending then 1 else 0) +
        if h ∈ g.remotePending then 1 else 0 := by
    obtain ⟨hmembers, hpending⟩ := hg.sound.exclusive h
    by_cases hmember : h ∈ g.members
    · simp [hmember, hmembers hmember]
    · by_cases hlocal : h ∈ g.localPending
      · simp [hmember, hlocal, hpending hlocal]
      · simp [hmember, hlocal]
  rw [Membership.count_holds, Membership.accounted, hg.self, hg.members, hg.localPending,
    hg.remotePending, hg.localPendingInfo, hg.owners, hplaced, holds]
  simp only [List.count_append, hcount, Option.count_toList, hg.sound.values_records, count_actors]
  omega

/-! ## Runs -/

theorem represents_new (self : Option Handle) (flags : GroupFlags) :
    (new self flags).Represents (.new self flags) :=
  ⟨sound_new self flags, rfl, rfl, fun _ => rfl, rfl⟩

/-- The stored sets and the membership, over the same operations, from a group that the sets
represent. -/
theorem Represents.run (build : Build) (start : Group) (hg : g.Represents start.membership)
    (hsignals : g.signals = start.signals) (ops : List GroupOperation) :
    match start.run ops with
    | .ok group => ∃ g', GroupSets.run build ops g = .ok () g' ∧
      g'.Represents group.membership ∧ g'.signals = group.signals
    | .error fault => build = .checked → ∃ g', GroupSets.run build ops g = .error fault g' := by
  induction ops generalizing g start with
  | nil => exact ⟨g, rfl, hg, hsignals⟩
  | cons op ops ih =>
    rw [Group.run, List.foldlM_cons, Group.step]
    cases hu : start.membership.perform op with
    | error fault =>
      rintro rfl
      exact ⟨g, by rw [run_cons, hg.perform_error hu]⟩
    | ok u =>
      obtain ⟨g', hstep, hg', hsignals'⟩ := hg.perform build hu
      rw [hsignals] at hsignals'
      rw [run_cons, hstep]
      exact ih (start.update u) hg' hsignals'

/-- The law of refinement, over whole runs from an empty group. Where the run of the membership ends
well, so does that of the stored sets, in a build of either kind; they have sent the same signals,
tell the same of those who wait, and hold the same references. Where it ends in a fault, the stored
sets end in the same fault in a checked build. -/
theorem run_refines (build : Build) (path : ObjectPath) (table : HandleTable)
    (self : Option Handle) (flags : GroupFlags) (ops : List GroupOperation) :
    match (Group.new path table self flags).run ops with
    | .ok group => ∃ g, run build ops (new self flags) = .ok () g ∧
      g.Represents group.membership ∧ g.signals = group.signals ∧
      g.localPendingInfo = group.membership.localPendingInfo ∧ g.holds.Perm group.membership.holds
    | .error fault => build = .checked → ∃ g, run build ops (new self flags) = .error fault g := by
  have hrun := (represents_new self flags).run build (.new path table self flags) rfl ops
  cases hend : (Group.new path table self flags).run ops with
  | error fault =>
    rw [hend] at hrun
    exact hrun
  | ok group =>
    rw [hend] at hrun
    obtain ⟨g, hok, hg, hsignals⟩ := hrun
    exact ⟨g, hok, hg, hsignals, hg.localPendingInfo.symm, hg.holds_perm⟩

end GroupSets

end Telepathy

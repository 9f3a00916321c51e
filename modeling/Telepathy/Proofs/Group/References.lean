import Telepathy.Proofs.Group.Holdings
import Telepathy.Proofs.Group.Owners
import Telepathy.Proofs.Handle.Coherence
import Telepathy.Proofs.Lists

set_option autoImplicit false

/-!
# A group holds what it accounts for

The references that a group holds on a handle can be told from its state: one for the local user,
one for a standing, one for each of those who wait by the handle's word, and one for each handle
that it owns. The main law is that the table counts these references and no others, after every run
of operations: the list of what is held (`Membership.holds`) has each handle as often as the state
accounts for, and each operation exchanges just the difference.
-/

namespace Telepathy

/-- By whose word somebody of this standing waits for the local user. -/
def Standing.actor? : Standing → Option Handle
  | localPending provenance => provenance.actor
  | member | remotePending => none

namespace Membership

variable {m : Membership}

/-! ## The account -/

/-- How many references on `h` the state of a group accounts for. -/
def accounted (m : Membership) (h : Handle) : Nat :=
  (if m.self = some h then 1 else 0) +
    (if h ∈ m.members ∨ h ∈ m.localPending ∨ h ∈ m.remotePending then 1 else 0) +
    m.localPendingInfo.countP (fun p => p.provenance.actor = some h) + m.owners.values.count h

theorem mem_keys_standings {h : Handle} :
    h ∈ m.standings.keys ↔ h ∈ m.members ∨ h ∈ m.localPending ∨ h ∈ m.remotePending := by
  rw [mem_members, mem_localPending, mem_remotePending, SortedMap.mem_keys, SortedMap.contains]
  cases m.standings.get? h with
  | none => simp
  | some s => cases s <;> simp

/-- What a standing holds are the handle itself and the actor for whom it waits. -/
theorem count_holds_standing (s : Standing) (a h : Handle) :
    (s.holds a).count h = (if a = h then 1 else 0) + if s.actor? = some h then 1 else 0 := by
  cases s with
  | member | remotePending => simp [Standing.holds, Standing.actor?, List.count_singleton]
  | localPending provenance =>
    rw [Standing.holds, List.count_cons, Option.count_toList, Standing.actor?, Nat.add_comm]
    simp only [beq_iff_eq]

theorem count_flatMap_holds (l : List (Handle × Standing)) (h : Handle) :
    (l.flatMap fun e => e.2.holds e.1).count h =
      (l.map Prod.fst).count h + l.countP fun e => e.2.actor? = some h := by
  induction l with
  | nil => rfl
  | cons e l ih =>
    rw [List.flatMap_cons, List.count_append, ih, count_holds_standing, List.map_cons,
      List.count_cons, List.countP_cons]
    simp only [beq_iff_eq, decide_eq_true_eq]
    omega

theorem countP_localPendingInfo (m : Membership) (h : Handle) :
    m.localPendingInfo.countP (fun p => p.provenance.actor = some h) =
      m.standings.toList.countP fun e => e.2.actor? = some h := by
  rw [localPendingInfo, List.countP_filterMap]
  refine congrArg (m.standings.toList.countP ·) (funext fun e => ?_)
  obtain ⟨a, s⟩ := e
  cases s <;> rfl

/-- A group holds each handle as often as its state accounts for. -/
theorem count_holds (m : Membership) (h : Handle) : m.holds.count h = m.accounted h := by
  have hkeys : (m.standings.toList.map Prod.fst).count h =
      if h ∈ m.members ∨ h ∈ m.localPending ∨ h ∈ m.remotePending then 1 else 0 := by
    have hnodup : (m.standings.toList.map Prod.fst).Nodup := m.standings.nodup_keys
    rw [hnodup.count]
    exact ite_congr (propext mem_keys_standings) (fun _ => rfl) fun _ => rfl
  rw [holds, List.count_append, List.count_append, count_flatMap_holds, hkeys, Option.count_toList,
    accounted, countP_localPendingInfo]
  omega

end Membership

/-! ## Operations -/

/-- Whether every handle on which an operation passes a reference is in use. An owner is recorded
for a mere number. -/
def GroupOperation.InUse (t : HandleTable) : GroupOperation → Prop
  | change joining leaving applying invited provenance =>
    ∀ h, h ∈ joining ∨ h ∈ leaving ∨ h ∈ applying ∨ h ∈ invited ∨ provenance.actor = some h →
      t.isValid h = true
  | addOwner _ owner => t.isValid owner = true
  | removeAll _ | changeFlags _ _ => True

theorem MembershipChange.within_ofSets? {joining leaving applying invited : SortedSet Handle}
    {provenance : Provenance} {c : MembershipChange} {P : Handle → Prop}
    (hc : ofSets? joining leaving applying invited provenance = some c)
    (h : ∀ h, h ∈ joining ∨ h ∈ leaving ∨ h ∈ applying ∨ h ∈ invited ∨ provenance.actor = some h →
      P h) : c.Within P where
  sent x p hx := by
    rw [get?_ofSets? hc] at hx
    refine h x ?_
    by_cases ha : x ∈ joining
    · exact .inl ha
    · by_cases hr : x ∈ leaving
      · exact .inr (.inl hr)
      · by_cases hl : x ∈ applying
        · exact .inr (.inr (.inl hl))
        · by_cases hp : x ∈ invited
          · exact .inr (.inr (.inr (.inl hp)))
          · simp [ha, hr, hl, hp] at hx
  actor x hx := by
    rw [provenance_ofSets? hc] at hx
    exact h x (.inr (.inr (.inr (.inr hx))))

namespace Membership

variable {m : Membership} {op : GroupOperation} {u : GroupUpdate}

/-- An operation gives back and takes what makes the difference between what was held before and
what is held afterwards. -/
theorem holds_perform (hu : m.perform op = .ok u) :
    (m.holds ++ u.retained).Perm (u.membership.holds ++ u.released) := by
  cases op with
  | change joining leaving applying invited provenance =>
    obtain ⟨c, -, rfl⟩ := perform_change_eq_ok.mp hu
    exact holds_change m c
  | removeAll reason =>
    cases hu
    exact holds_change m _
  | changeFlags add remove =>
    obtain ⟨⟨flags, hm⟩, hretained, hreleased, -⟩ := changeFlags_frame hu
    rw [hretained, hreleased, hm]
    exact .refl _
  | addOwner h owner =>
    cases hu
    refine List.perm_iff_count.mpr fun x => ?_
    have howners := (m.owners.values_insert_perm h owner).count_eq x
    simp only [addOwner, holds, List.count_append, List.count_cons, List.count_nil] at howners ⊢
    omega

/-- An operation takes references only on what is in use. -/
theorem retained_perform {t : HandleTable} (hop : op.InUse t)
    (hm : ∀ h ∈ m.everyone, t.isValid h = true) (hu : m.perform op = .ok u) :
    ∀ h ∈ u.retained, t.isValid h = true := by
  cases op with
  | change joining leaving applying invited provenance =>
    obtain ⟨c, hc, rfl⟩ := perform_change_eq_ok.mp hu
    exact retained_change m c (MembershipChange.within_ofSets? hc hop)
  | removeAll reason =>
    cases hu
    exact retained_change m _ (MembershipChange.within_ofSet .outside hm rfl)
  | changeFlags add remove =>
    obtain ⟨-, hretained, -, -⟩ := changeFlags_frame hu
    simp [hretained]
  | addOwner h owner =>
    cases hu
    rintro x hx
    rw [List.mem_singleton.mp hx]
    exact hop

/-! ## Removing everyone -/

/-- The owners that are recorded for handles in none of the sets. -/
def ownersElsewhere (m : Membership) : List Handle :=
  (m.owners.filter fun h _ => h ∉ m.members ∧ h ∉ m.localPending ∧ h ∉ m.remotePending).values

theorem get?_removeAll (m : Membership) (reason : ChangeReason) (h : Handle) :
    (m.removeAll reason).membership.standings.get? h = none := by
  rw [removeAll, change_get?, MembershipChange.get?_ofSet]
  by_cases hh : h ∈ m.everyone
  · rw [if_pos hh]
    rfl
  · rw [if_neg hh, Option.elim]
    cases hget : m.standings.get? h with
    | none => rfl
    | some s => exact absurd (SortedMap.mem_keySet.mpr ⟨s, hget⟩) hh

/-- When everyone is removed, the owners of those who were in the group are forgotten. -/
theorem values_owners_removeAll (m : Membership) (reason : ChangeReason) :
    (m.removeAll reason).membership.owners.values = m.ownersElsewhere := by
  refine congrArg SortedMap.values (SortedMap.ext_get? fun h => ?_)
  have hleaves : (h, .outside) ∈ m.moves (.ofSet m.everyone .outside ⟨none, reason, ""⟩) ↔
      h ∈ m.members ∨ h ∈ m.localPending ∨ h ∈ m.remotePending := by
    rw [mem_moves, MembershipChange.get?_ofSet, Option.ite_none_right_eq_some, ← contains_iff,
      everyone, SortedMap.mem_keySet, ← Option.isSome_iff_exists, ← mem_keys_standings,
      SortedMap.mem_keys]
    exact ⟨And.right, fun h => ⟨⟨h, rfl⟩, h⟩⟩
  rw [removeAll, get?_owners_change, SortedMap.get?_filter]
  simp only [hleaves, ← not_or]
  by_cases hin : h ∈ m.members ∨ h ∈ m.localPending ∨ h ∈ m.remotePending
  · simp only [hin, not_true_eq_false, decide_false, if_true]
    cases m.owners.get? h <;> rfl
  · simp only [hin, not_false_eq_true, decide_true, if_false]
    cases m.owners.get? h <;> rfl

/-- When everyone is removed, the local user and the owners of absent handles are still held. -/
theorem count_holds_removeAll (m : Membership) (reason : ChangeReason) (h : Handle) :
    (m.removeAll reason).membership.holds.count h =
      (if m.self = some h then 1 else 0) + m.ownersElsewhere.count h := by
  have hstandings : (m.removeAll reason).membership.standings = .empty :=
    SortedMap.eq_empty_iff.mpr (get?_removeAll m reason)
  have hself : (m.removeAll reason).membership.self = m.self := change_self m _
  rw [holds, hstandings, hself, values_owners_removeAll, SortedMap.empty, List.flatMap_nil,
    List.append_nil, List.count_append, Option.count_toList]

end Membership

namespace Group

variable {g g' : Group} {table : HandleTable} {op : GroupOperation}

/-! ## Runs -/

/-- The table of a group has the handles of `table`, and counts beside the references there those
that the group holds. -/
structure HoldsIn (g : Group) (table : HandleTable) : Prop where
  inspect : ∀ h, g.table.inspect h = table.inspect h
  counts : ∀ h, g.table.referencesTo h = table.referencesTo h + g.membership.holds.count h

theorem HoldsIn.isValid_iff (hg : g.HoldsIn table) {h : Handle} :
    g.table.isValid h = true ↔ table.isValid h = true := by
  rw [HandleTable.isValid_iff, HandleTable.isValid_iff, hg.inspect]

/-- Everyone in the group is referenced, and therefore in use. -/
theorem HoldsIn.isValid_of_mem (hg : g.HoldsIn table) :
    ∀ h ∈ g.membership.everyone, table.isValid h = true := by
  intro h hh
  obtain ⟨s, hs⟩ := SortedMap.mem_keySet.mp hh
  refine hg.isValid_iff.mp (HandleTable.isValid_of_referenced ?_)
  rw [hg.counts]
  exact Nat.lt_add_left _ (List.count_pos_iff.mpr (Membership.mem_holds_of_standing hs))

theorem holdsIn_new (path : ObjectPath) {self : Option Handle}
    (hself : ∀ h, self = some h → table.isValid h = true) (flags : GroupFlags) :
    (new path table self flags).HoldsIn table where
  inspect h := HandleTable.inspect_exchange ..
  counts h := by
    have hvalid : ∀ h ∈ self.toList, table.isValid h = true := fun h hh =>
      hself h (Option.mem_toList.mp hh)
    have hholds : (Membership.new self flags).holds = self.toList := by
      simp [Membership.holds, Membership.new, SortedMap.empty, SortedMap.values]
    rw [new, HandleTable.referencesTo_exchange hvalid, hholds]
    rfl

theorem HoldsIn.step (hg : g.HoldsIn table) (hop : op.InUse table) (hstep : g.step op = .ok g') :
    g'.HoldsIn table := by
  obtain ⟨u, hu, rfl⟩ := Except.map_eq_ok.mp hstep
  refine ⟨fun h => (HandleTable.inspect_exchange ..).trans (hg.inspect h), fun h => ?_⟩
  have hretained : ∀ h ∈ u.retained, g.table.isValid h = true := fun h hh =>
    hg.isValid_iff.mpr (Membership.retained_perform hop hg.isValid_of_mem hu h hh)
  have hexchanged := (Membership.holds_perform hu).count_eq h
  have hcounts : (g.update u).table.referencesTo h =
      g.table.referencesTo h + u.retained.count h - u.released.count h :=
    HandleTable.referencesTo_exchange hretained ..
  have hmembership : (g.update u).membership = u.membership := rfl
  rw [List.count_append, List.count_append] at hexchanged
  rw [hcounts, hg.counts, hmembership]
  omega

theorem HoldsIn.run (hg : g.HoldsIn table) {ops : List GroupOperation}
    (hops : ∀ op ∈ ops, op.InUse table) (hrun : g.run ops = .ok g') : g'.HoldsIn table := by
  induction ops generalizing g with
  | nil =>
    cases hrun
    exact hg
  | cons op ops ih =>
    rw [Group.run, List.foldlM_cons] at hrun
    obtain ⟨g₁, hstep, hlater⟩ := Except.bind_eq_ok.mp hrun
    exact ih (hg.step (hops op List.mem_cons_self) hstep)
      (fun op hop => hops op (List.mem_cons_of_mem _ hop)) hlater

/-- The law of references, over whole runs from an empty group whose operations name handles in use.
A run ends by a fault only if one of its operations is at fault. Otherwise the table counts, beside
the references it counted before the group was there, exactly those that the group accounts for; and
when everyone is removed, those on the local user and on the owners of absent handles. -/
theorem run_holds_accounted (path : ObjectPath) (table : HandleTable) (self : Option Handle)
    (flags : GroupFlags) (hself : ∀ h, self = some h → table.isValid h = true)
    (ops : List GroupOperation) (hops : ∀ op ∈ ops, op.InUse table) :
    match (new path table self flags).run ops with
    | .error fault => ops.findSome? (·.fault?) = some fault
    | .ok g =>
      ops.findSome? (·.fault?) = none ∧
      (∀ h, g.table.referencesTo h = table.referencesTo h + g.membership.accounted h) ∧
      ∀ reason, ∃ g', g.step (.removeAll reason) = .ok g' ∧
        ∀ h, g'.table.referencesTo h = table.referencesTo h +
          ((if g.membership.self = some h then 1 else 0) +
            g.membership.ownersElsewhere.count h) := by
  have hfault := (new path table self flags).run_faults ops
  cases hrun : (new path table self flags).run ops with
  | error fault =>
    rw [hrun] at hfault
    exact hfault
  | ok g =>
    rw [hrun] at hfault
    have hg := (holdsIn_new path hself flags).run hops hrun
    refine ⟨hfault, fun h => ?_, fun reason => ⟨_, rfl, fun h => ?_⟩⟩
    · rw [hg.counts, Membership.count_holds]
    · have hstep : g.step (.removeAll reason) =
          .ok (g.update (g.membership.removeAll reason)) := rfl
      have hnamed : (GroupOperation.removeAll reason).InUse table := trivial
      have hremoved := hg.step hnamed hstep
      rw [hremoved.counts, ← Membership.count_holds_removeAll g.membership reason]
      rfl

section Samples

/-- A table of three contacts. -/
def threeContacts : HandleTable := .fixed .contact ["ann", "bob", "eve"]

/-- Bob waits by Ann's word and then by Eve's, is owned by Ann and then by Eve, and becomes a
member; Ann owns a handle that is not there. -/
def replacements : List GroupOperation :=
  let ann : Handle := .first
  let bob := ann.next
  let eve := bob.next
  [.change .empty .empty (.ofList [bob]) .empty ⟨some ann, .invited, "hello"⟩,
    .change (.ofList [eve]) .empty (.ofList [bob]) .empty ⟨some eve, .invited, "hello again"⟩,
    .addOwner bob ann, .addOwner bob eve,
    .change (.ofList [bob, eve]) .empty .empty .empty .unstated, .addOwner eve.next ann]

theorem inUse_replacements : ∀ op ∈ replacements, op.InUse threeContacts := by
  have hvalid : ∀ h ∈ [Handle.first, Handle.first.next, Handle.first.next.next],
      threeContacts.isValid h = true := by decide +kernel
  simp only [replacements, List.forall_mem_cons, GroupOperation.InUse]
  refine ⟨?_, ?_, hvalid _ (by simp), hvalid _ (by simp), ?_, hvalid _ (by simp), by simp⟩
  all_goals
    intro h hh
    refine hvalid h ?_
    simp only [SortedSet.mem_ofList, SortedSet.not_mem_empty, Provenance.unstated,
      Option.some.injEq, List.mem_cons, List.not_mem_nil, reduceCtorEq, or_false, false_or] at hh ⊢
    grind

theorem replacements_accounted :
    (∀ h, some Handle.first = some h → threeContacts.isValid h = true) ∧
      (∀ op ∈ replacements, op.InUse threeContacts) ∧
      ∃ g, (new ⟨"/group"⟩ threeContacts (some .first) .none).run replacements = .ok g ∧
        g.table.referencesTo .first = 2 ∧ g.table.referencesTo Handle.first.next = 1 ∧
        g.table.referencesTo Handle.first.next.next = 2 := by
  have hself : ∀ h, some Handle.first = some h → threeContacts.isValid h = true := by
    rintro _ ⟨⟩
    decide +kernel
  obtain ⟨g, hrun, haccounted⟩ : ∃ g,
      (new ⟨"/group"⟩ threeContacts (some .first) .none).run replacements = .ok g ∧
      decide (g.membership.accounted .first = 2 ∧ g.membership.accounted Handle.first.next = 1 ∧
        g.membership.accounted Handle.first.next.next = 2) = true :=
    Except.eq_ok_of_any (by decide +kernel)
  have hlaw := run_holds_accounted ⟨"/group"⟩ threeContacts (some .first) .none hself replacements
    inUse_replacements
  rw [hrun] at hlaw
  obtain ⟨hann, hbob, heve⟩ := of_decide_eq_true haccounted
  have hunreferenced : ∀ h ∈ [Handle.first, Handle.first.next, Handle.first.next.next],
      threeContacts.referencesTo h = 0 := by decide +kernel
  refine ⟨hself, inUse_replacements, g, hrun, ?_, ?_, ?_⟩
  · rw [hlaw.2.1, hann, hunreferenced _ (by simp)]
  · rw [hlaw.2.1, hbob, hunreferenced _ (by simp)]
  · rw [hlaw.2.1, heve, hunreferenced _ (by simp)]

end Samples

end Group

end Telepathy

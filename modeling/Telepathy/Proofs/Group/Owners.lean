import Mathlib.Data.List.Induction
import Telepathy.Proofs.Group.Operations

set_option autoImplicit false

/-!
# Owners live as long as the membership

The owner on record for a handle is the one that was recorded last, unless the handle has left the
group since. Clients can tell, because exactly those leave whom a signal names as removed: a handle
that goes from one of the three sets to another keeps its owner, and so does a handle that is to
leave a group in which it is not. The main law reads the owners off the history of a group, which is
what was recorded and what was signalled afterwards.
-/

namespace Telepathy

/-- Whether a signal says that `h` left a group. -/
def Signal.removes (h : Handle) : Signal → Bool
  | .membersChanged e => h ∈ e.removed
  | _ => false

/-- The owner that an operation records for `h`. -/
def GroupOperation.recorded? (h : Handle) : GroupOperation → Option Handle
  | addOwner h' owner => if h = h' then some owner else none
  | change _ _ _ _ _ | removeAll _ | changeFlags _ _ => none

namespace Membership

variable {m : Membership}

/-! ## One handle -/

theorem contains_iff {h : Handle} : m.contains h = true ↔ m.placeOf h ≠ .outside := by
  rw [contains, SortedMap.contains, placeOf]
  cases m.standings.get? h with
  | none => simp
  | some s => cases s <;> simp [Standing.place]

/-- A handle that goes to its place loses its owner if it thereby leaves the group; all others keep
theirs. -/
theorem get?_owners_settle (m : Membership) (provenance : Provenance) (h h' : Handle) (p : Place) :
    (m.settle provenance h p).owners.get? h' =
      if h' = h ∧ p = .outside ∧ m.placeOf h ≠ .outside then none else m.owners.get? h' := by
  cases p with
  | member | localPending | remotePending => simp [settle, Standing.ofPlace?]
  | outside =>
    simp only [settle, Standing.ofPlace?, contains_iff]
    by_cases hin : m.placeOf h = .outside
    · simp [hin]
    · simp [hin, SortedMap.get?_erase]

/-! ## A batch -/

/-- Of some handles that go to their places those lose their owners that leave the group. -/
theorem get?_owners_foldl (provenance : Provenance) (h : Handle) {l : List (Handle × Place)}
    (hl : l.Pairwise fun a b => compare a.1 b.1 = .lt) (u : Progress) :
    (l.foldl (fun u e => u.send provenance e.1 e.2) u).membership.owners.get? h =
      if (h, .outside) ∈ l ∧ u.membership.placeOf h ≠ .outside then none
      else u.membership.owners.get? h := by
  induction l generalizing u with
  | nil => simp
  | cons e l ih =>
    obtain ⟨h₀, p₀⟩ := e
    obtain ⟨hfirst, hrest⟩ := List.pairwise_cons.mp hl
    have howners : (u.send provenance h₀ p₀).membership.owners.get? h =
        if h = h₀ ∧ p₀ = .outside ∧ u.membership.placeOf h₀ ≠ .outside then none
        else u.membership.owners.get? h := get?_owners_settle ..
    have hplace : h ≠ h₀ →
        (u.send provenance h₀ p₀).membership.placeOf h = u.membership.placeOf h := by
      intro hne
      rw [placeOf, Progress.send, settle_get?, if_neg hne, placeOf]
    rw [List.foldl_cons, ih hrest, howners]
    by_cases heq : h = h₀
    · subst heq
      have habsent : (h, Place.outside) ∉ l := SortedMap.ne_of_ascending hfirst _
      simp [habsent, eq_comm]
    · simp [heq, hplace heq]

/-- A batch takes their owners from those that leave, and from nobody else. -/
theorem get?_owners_change (m : Membership) (c : MembershipChange) (h : Handle) :
    (m.change c).membership.owners.get? h =
      if (h, .outside) ∈ m.moves c then none else m.owners.get? h := by
  have hmoves : (h, .outside) ∈ c.places.toList ∧ m.placeOf h ≠ .outside ↔
      (h, .outside) ∈ m.moves c := by
    rw [mem_moves, SortedMap.get?_eq_some_iff]
  exact (get?_owners_foldl c.provenance h c.places.ascending ⟨m, [], [], []⟩).trans
    (ite_congr (propext hmoves) (fun _ => rfl) fun _ => rfl)

/-- The signal of a batch names as removed those that leave. -/
theorem removes_change (m : Membership) (c : MembershipChange) (h : Handle) :
    (m.change c).signal.any (·.removes h) = decide ((h, .outside) ∈ m.moves c) := by
  rw [change_signal, announcement]
  cases hmoves : m.moves c with
  | nil => simp
  | cons e l => simp [Signal.removes, mem_movedTo]

/-- Of four sets that do not overlap, the second takes their owners from those who are in the group.
-/
theorem get?_owners_change_ofSets? {joining leaving applying invited : SortedSet Handle}
    {provenance : Provenance} {c : MembershipChange}
    (hc : MembershipChange.ofSets? joining leaving applying invited provenance = some c)
    (h : Handle) :
    (m.change c).membership.owners.get? h =
      if h ∈ leaving ∧ m.contains h = true then none else m.owners.get? h := by
  have hleaves : (h, .outside) ∈ m.moves c ↔ h ∈ leaving ∧ m.contains h = true := by
    rw [mem_moves, MembershipChange.get?_ofSets?_eq_outside hc, contains_iff]
  rw [get?_owners_change]
  exact ite_congr (propext hleaves) (fun _ => rfl) fun _ => rfl

/-! ## An operation -/

/-- After an operation, the owner of a handle is the one it recorded, or none if it signalled that
the handle was removed, or else the one before. -/
theorem get?_owners_perform {op : GroupOperation} {u : GroupUpdate} (hu : m.perform op = .ok u)
    (h : Handle) :
    u.membership.owners.get? h =
      (op.recorded? h).or (if u.signal.any (·.removes h) = true then none else m.owners.get? h) :=
    by
  have hbatch : ∀ c, (m.change c).membership.owners.get? h =
      if (m.change c).signal.any (·.removes h) = true then none else m.owners.get? h := by
    intro c
    rw [get?_owners_change, removes_change]
    simp
  cases op with
  | change joining leaving applying invited provenance =>
    obtain ⟨c, -, rfl⟩ := perform_change_eq_ok.mp hu
    exact hbatch c
  | removeAll reason =>
    cases hu
    exact hbatch _
  | changeFlags add remove =>
    obtain ⟨⟨flags, hm⟩, -, -, hsignal⟩ := changeFlags_frame hu
    have hsilent : u.signal.any (·.removes h) = false := by
      refine (Option.any_eq_false _ _).mpr fun s hs => ?_
      obtain ⟨added, removed, rfl⟩ := hsignal s hs
      rfl
    rw [hsilent, hm]
    rfl
  | addOwner h' owner =>
    cases hu
    simp only [addOwner, SortedMap.get?_insert, GroupOperation.recorded?]
    by_cases heq : h = h' <;> simp [heq]

end Membership

namespace Group

variable {start g : Group}

/-! ## Runs -/

theorem run_append (start : Group) (before after : List GroupOperation) :
    start.run (before ++ after) = (start.run before).bind (·.run after) :=
  List.foldlM_append

theorem run_singleton (g : Group) (op : GroupOperation) : g.run [op] = g.step op := by
  cases h : g.step op <;> simp [run, h, bind, Except.bind, pure, Except.pure]

theorem run_append_singleton_eq_ok {start g : Group} {ops : List GroupOperation}
    {op : GroupOperation} :
    start.run (ops ++ [op]) = .ok g ↔ ∃ g₁, start.run ops = .ok g₁ ∧ g₁.step op = .ok g := by
  simp only [run_append, run_singleton]
  exact Except.bind_eq_ok

/-- A run adds signals to those that were sent before. -/
theorem run_signals {ops : List GroupOperation} (h : start.run ops = .ok g) :
    ∃ sent, g.signals = start.signals ++ sent := by
  refine List.foldlM_rel (R := fun g g' : Group => ∃ sent, g'.signals = g.signals ++ sent)
    (fun g => ⟨[], (List.append_nil _).symm⟩) ?_ ?_ h
  · rintro g g' g'' ⟨sent, h⟩ ⟨sent', h'⟩
    exact ⟨sent ++ sent', by rw [h', h, List.append_assoc]⟩
  · intro g op g' hstep
    obtain ⟨u, -, rfl⟩ := Except.map_eq_ok.mp hstep
    exact ⟨_, rfl⟩

/-- A run that is taken apart after one of its operations. -/
theorem run_through {before after : List GroupOperation} {op : GroupOperation} {g₁ g₂ : Group}
    (hfirst : start.run (before ++ [op]) = .ok g₁) (hlater : g₁.run after = .ok g₂) :
    start.run (before ++ op :: after) = .ok g₂ := by
  rw [← List.singleton_append, ← List.append_assoc, run_append, hfirst]
  exact hlater

/-! ## Owners in the history of a group -/

/-- In the history of a group, `owner` was recorded for `h`, and since then neither was another one
nor did a signal say that `h` was removed. -/
def Owned (start : Group) (ops : List GroupOperation) (h owner : Handle) : Prop :=
  ∃ before after g₁ g₂ sent,
    ops = before ++ .addOwner h owner :: after ∧
    start.run (before ++ [.addOwner h owner]) = .ok g₁ ∧
    g₁.run after = .ok g₂ ∧ g₂.signals = g₁.signals ++ sent ∧
    (∀ op ∈ after, op.recorded? h = none) ∧ ∀ s ∈ sent, s.removes h = false

variable {ops : List GroupOperation} {op : GroupOperation} {u : GroupUpdate} {h owner : Handle}

theorem recorded?_eq_some_iff : op.recorded? h = some owner ↔ op = .addOwner h owner := by
  cases op with
  | addOwner h' o =>
    rw [GroupOperation.recorded?, Option.ite_none_right_eq_some, Option.some.injEq,
      GroupOperation.addOwner.injEq, eq_comm (a := h)]
  | change _ _ _ _ _ | removeAll _ | changeFlags _ _ => simp [GroupOperation.recorded?]

/-- An owner that one more operation leaves or makes was there before or is recorded by it. -/
theorem Owned.of_append_singleton (howned : start.Owned (ops ++ [op]) h owner)
    (hrun : start.run ops = .ok g) (hstep : g.step op = .ok (g.update u)) :
    op.recorded? h = some owner ∨
      (op.recorded? h = none ∧ u.signal.any (·.removes h) = false ∧ start.Owned ops h owner) := by
  obtain ⟨before, after, g₁, g₂, sent, hops, hfirst, hlater, hsignals, hsole, hsent⟩ := howned
  rcases List.eq_nil_or_concat after with rfl | ⟨after, last, rfl⟩
  · obtain ⟨-, hop⟩ := List.append_inj' hops rfl
    exact .inl (recorded?_eq_some_iff.mpr (List.singleton_inj.mp hop))
  · rw [List.concat_eq_append] at hops hlater hsole
    rw [← List.cons_append, ← List.append_assoc] at hops
    obtain ⟨rfl, hop⟩ := List.append_inj' hops rfl
    cases hop
    obtain ⟨g', hmiddle, hlast⟩ := run_append_singleton_eq_ok.mp hlater
    cases (run_through hfirst hmiddle).symm.trans hrun
    cases hstep.symm.trans hlast
    obtain ⟨earlier, hearlier⟩ := run_signals hmiddle
    rw [update, hearlier, List.append_assoc, List.append_cancel_left_eq] at hsignals
    rw [← hsignals, List.forall_mem_append] at hsent
    have hkept : u.signal.any (·.removes h) = false :=
      (Option.any_eq_false _ _).mpr fun s hs => hsent.2 s (Option.mem_toList.mpr hs)
    exact .inr ⟨hsole op (by simp), hkept, before, after, g₁, g, earlier, rfl, hfirst, hmiddle,
      hearlier, fun op hop => hsole op (List.mem_append_left _ hop), hsent.1⟩

theorem owned_of_recorded (hop : op.recorded? h = some owner) (hrun : start.run ops = .ok g)
    (hstep : g.step op = .ok (g.update u)) : start.Owned (ops ++ [op]) h owner := by
  cases recorded?_eq_some_iff.mp hop
  exact ⟨ops, [], g.update u, g.update u, [], rfl,
    run_append_singleton_eq_ok.mpr ⟨g, hrun, hstep⟩, rfl, (List.append_nil _).symm, by simp,
    by simp⟩

theorem Owned.append_singleton (howned : start.Owned ops h owner) (hop : op.recorded? h = none)
    (hkept : u.signal.any (·.removes h) = false) (hrun : start.run ops = .ok g)
    (hstep : g.step op = .ok (g.update u)) : start.Owned (ops ++ [op]) h owner := by
  obtain ⟨before, after, g₁, g₂, sent, rfl, hfirst, hlater, hsignals, hsole, hsent⟩ := howned
  cases (run_through hfirst hlater).symm.trans hrun
  refine ⟨before, after ++ [op], g₁, g.update u, sent ++ u.signal.toList, by simp, hfirst,
    run_append_singleton_eq_ok.mpr ⟨g, hlater, hstep⟩, ?_, ?_, ?_⟩
  · rw [update, hsignals, List.append_assoc]
  · exact List.forall_mem_append.mpr ⟨hsole, by simpa using hop⟩
  · refine List.forall_mem_append.mpr ⟨hsent, fun s hs => ?_⟩
    rw [Option.mem_toList.mp hs] at hkept
    exact hkept

/-- The owners on record are those of the history. -/
theorem get?_owners_run (hstart : start.membership.owners = .empty) (hrun : start.run ops = .ok g)
    (h owner : Handle) :
    g.membership.owners.get? h = some owner ↔ start.Owned ops h owner := by
  induction ops using List.reverseRecOn generalizing g with
  | nil =>
    cases hrun
    rw [hstart]
    constructor
    · nofun
    · rintro ⟨before, after, -, -, -, hops, -⟩
      simp at hops
  | append_singleton ops op ih =>
    obtain ⟨g₁, hbefore, hstep⟩ := run_append_singleton_eq_ok.mp hrun
    obtain ⟨u, hu, rfl⟩ := Except.map_eq_ok.mp hstep
    rw [update, Membership.get?_owners_perform hu, Option.or_eq_some_iff]
    constructor
    · rintro (hop | ⟨hop, hget⟩)
      · exact owned_of_recorded hop hbefore hstep
      · rw [Option.ite_none_left_eq_some, Bool.not_eq_true] at hget
        exact ((ih hbefore).mp hget.2).append_singleton hop hget.1 hbefore hstep
    · intro howned
      refine (howned.of_append_singleton hbefore hstep).imp id fun ⟨hop, hkept, hbefore'⟩ => ?_
      rw [hkept]
      exact ⟨hop, (ih hbefore).mpr hbefore'⟩

/-- Who has no owner gets none unless one is recorded. -/
theorem get?_owners_run_of_unrecorded (hstart : start.membership.owners.get? h = none)
    (hops : ∀ op ∈ ops, op.recorded? h = none) (hrun : start.run ops = .ok g) :
    g.membership.owners.get? h = none := by
  induction ops generalizing start with
  | nil =>
    cases hrun
    exact hstart
  | cons op ops ih =>
    obtain ⟨g₁, hstep, hlater⟩ := Except.bind_eq_ok.mp (by rwa [run, List.foldlM_cons] at hrun)
    obtain ⟨u, hu, rfl⟩ := Except.map_eq_ok.mp hstep
    refine ih ?_ (fun op hop => hops op (List.mem_cons_of_mem _ hop)) hlater
    rw [update, Membership.get?_owners_perform hu, hops op List.mem_cons_self, hstart]
    simp

end Group

namespace Membership

/-! ## Asking for owners -/

/-- What a client learns that asks a group for the owners of some handles, if `owned` says who owns
whom: one entry for each handle, in their order, or why it learns nothing. -/
structure TellsOwners (m : Membership) (handles : List Handle) (owned : Handle → Handle → Prop) :
    Prop where
  granted : (m.ownersOf handles).isOk = true ↔
    m.flags.has .channelSpecificHandles = true ∧ ∀ h ∈ handles, h ∈ m.members
  entries : ∀ entries, m.ownersOf handles = .ok entries → ∃ owner? : Handle → Option Handle,
    entries = handles.map owner? ∧ ∀ h owner, owner? h = some owner ↔ owned h owner
  refused : ∀ refusal, m.ownersOf handles = .error refusal →
    refusal.toError.kind =
      if m.flags.has .channelSpecificHandles = true then .invalidArgument else .notAvailable

/-- How asking for owners ends. -/
theorem ownersOf_cases (m : Membership) (handles : List Handle) :
    (m.flags.has .channelSpecificHandles = false ∧
      m.ownersOf handles = .error .noSpecificHandles) ∨
    (m.flags.has .channelSpecificHandles = true ∧
      ∃ h ∈ handles, h ∉ m.members ∧ m.ownersOf handles = .error (.notMember h)) ∨
    (m.flags.has .channelSpecificHandles = true ∧ (∀ h ∈ handles, h ∈ m.members) ∧
      m.ownersOf handles = .ok (handles.map m.owners.get?)) := by
  have hmember : ∀ h, h ∈ m.members ↔ m.placeOf h = .member := fun h => mem_inPlace (by decide)
  unfold ownersOf
  cases m.flags.has .channelSpecificHandles with
  | false => exact .inl ⟨rfl, rfl⟩
  | true =>
    rw [Bool.not_true, if_neg Bool.false_ne_true]
    split
    · next h hfind =>
      have hout : h ∉ m.members := by simpa [hmember] using List.find?_some hfind
      exact .inr (.inl ⟨rfl, h, List.mem_of_find?_eq_some hfind, hout, rfl⟩)
    · next hfind => exact .inr (.inr ⟨rfl, by simpa [hmember] using hfind, rfl⟩)

theorem tellsOwners {m : Membership} {owned : Handle → Handle → Prop}
    (howned : ∀ h owner, m.owners.get? h = some owner ↔ owned h owner) (handles : List Handle) :
    m.TellsOwners handles owned := by
  obtain ⟨hflag, hanswer⟩ | ⟨hflag, h, hh, hout, hanswer⟩ | ⟨hflag, hall, hanswer⟩ :=
    m.ownersOf_cases handles
  · refine ⟨?_, ?_, ?_⟩ <;> rw [hanswer]
    · rw [hflag]
      exact ⟨nofun, nofun⟩
    · nofun
    · rintro _ ⟨⟩
      rw [hflag]
      rfl
  · refine ⟨?_, ?_, ?_⟩ <;> rw [hanswer]
    · exact ⟨nofun, fun hall => absurd (hall.2 h hh) hout⟩
    · nofun
    · rintro _ ⟨⟩
      rw [hflag]
      rfl
  · refine ⟨?_, ?_, ?_⟩ <;> rw [hanswer]
    · exact iff_of_true rfl ⟨hflag, hall⟩
    · rintro _ ⟨⟩
      exact ⟨m.owners.get?, rfl, howned⟩
    · nofun

end Membership

namespace Group

/-- The law of owners, over whole runs from an empty group. A run ends by a fault only if one of its
operations is at fault. Otherwise clients are told the owners that the history of the group says; a
further batch takes an owner only from those who are in the group and are to leave it; and whoever
has no owner, having left, say, has none until one is recorded, whatever happens meanwhile. -/
theorem run_keeps_owners (path : ObjectPath) (table : HandleTable) (self : Option Handle)
    (flags : GroupFlags) (ops : List GroupOperation) :
    let start := new path table self flags
    match start.run ops with
    | .error fault => ops.findSome? (·.fault?) = some fault
    | .ok g =>
      ops.findSome? (·.fault?) = none ∧
      (∀ handles, g.membership.TellsOwners handles (start.Owned ops)) ∧
      (∀ (joining leaving applying invited : SortedSet Handle) (provenance : Provenance),
        MembershipChange.disjoint joining leaving applying invited = true →
        ∃ g', g.step (.change joining leaving applying invited provenance) = .ok g' ∧
          ∀ h, g'.membership.owners.get? h =
            if h ∈ leaving ∧ g.membership.contains h = true then none
            else g.membership.owners.get? h) ∧
      ∀ h later g', g.membership.owners.get? h = none → (∀ owner, .addOwner h owner ∉ later) →
        g.run later = .ok g' → g'.membership.owners.get? h = none := by
  intro start
  have hfault := start.run_faults ops
  cases hrun : start.run ops with
  | error fault =>
    rw [hrun] at hfault
    exact hfault
  | ok g =>
    rw [hrun] at hfault
    refine ⟨hfault, Membership.tellsOwners (get?_owners_run rfl hrun),
      fun joining leaving applying invited provenance hdisjoint => ?_,
      fun h later g' hnone hlater hrun' => get?_owners_run_of_unrecorded hnone ?_ hrun'⟩
    · obtain ⟨c, hc⟩ : ∃ c, MembershipChange.ofSets? joining leaving applying invited provenance =
          some c := ⟨_, if_pos hdisjoint⟩
      refine ⟨g.update (g.membership.change c), ?_, Membership.get?_owners_change_ofSets? hc⟩
      rw [step, Membership.perform, hc]
      rfl
    · intro op hop
      refine Option.eq_none_iff_forall_ne_some.mpr fun owner howner => ?_
      rw [recorded?_eq_some_iff.mp howner] at hop
      exact hlater owner hop

/-- One is sent to wait and let in again, another is removed and let in again. -/
example :
    let ann : Handle := .first
    let bob := ann.next
    let both : SortedSet Handle := .ofList [ann, bob]
    ((new ⟨"/group"⟩ (.onDemand .contact) none .channelSpecificHandles).run
      [.change both .empty .empty .empty .unstated, .addOwner ann bob, .addOwner bob ann,
        .change .empty (.ofList [ann]) (.ofList [bob]) .empty .unstated,
        .change both .empty .empty .empty .unstated]).toOption.any
      (fun g => (g.membership.ownersOf [bob, ann]).toOption = some [some ann, none]) = true := by
  decide +kernel

end Group

end Telepathy

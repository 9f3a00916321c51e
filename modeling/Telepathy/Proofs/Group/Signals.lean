import Telepathy.Group.Basic
import Telepathy.Proofs.Fallible
import Telepathy.Proofs.Group.Change

set_option autoImplicit false

/-!
# Signals tell all there is to know

A client that once read the members and flags of a group can keep its copy up to date from the
signals alone: it drops every handle a signal names and puts it where the signal says. A
`GroupView` is such a copy. The main law says that the copy is exact after every run of operations,
and that signals are neither sent without need nor left out.
-/

namespace Telepathy

/-- What a client knows of a group. -/
structure GroupView where
  members : SortedSet Handle
  localPending : SortedSet Handle
  remotePending : SortedSet Handle
  flags : GroupFlags
deriving DecidableEq

namespace GroupView

/-- A copy of one of the sets: the handles that a signal names are dropped, and some put in. -/
def refresh (s : SortedSet Handle) (e : MembersChanged) (put : List Handle) : SortedSet Handle :=
  (s.filter (· ∉ e.added ++ e.removed ++ e.localPending ++ e.remotePending)).union (.ofList put)

/-- What a client makes of a signal. -/
def receive (v : GroupView) : Signal → GroupView
  | .membersChanged e =>
    { v with
      members := refresh v.members e e.added
      localPending := refresh v.localPending e e.localPending
      remotePending := refresh v.remotePending e e.remotePending }
  | .groupFlagsChanged added removed => { v with flags := (v.flags.union added).diff removed }
  | _ => v

/-- The three sets of a view. -/
def sets (v : GroupView) : SortedSet Handle × SortedSet Handle × SortedSet Handle :=
  (v.members, v.localPending, v.remotePending)

end GroupView

/-- The lists of a signal are strictly ascending and share no handle. -/
structure MembersChanged.Ordered (e : MembersChanged) : Prop where
  ascending : ∀ l ∈ [e.added, e.removed, e.localPending, e.remotePending],
    l.Pairwise fun h h' => compare h h' = .lt
  disjoint : [e.added, e.removed, e.localPending, e.remotePending].Pairwise
    fun l l' => ∀ h ∈ l, h ∉ l'

namespace Membership

/-- What a client sees that reads a group anew. -/
def view (m : Membership) : GroupView := ⟨m.members, m.localPending, m.remotePending, m.flags⟩

variable {m m' : Membership} {c : MembershipChange}

/-- The three sets determine where everyone is. -/
theorem placeOf_eq_of_sets (h : m'.view.sets = m.view.sets) (x : Handle) :
    m'.placeOf x = m.placeOf x := by
  simp only [GroupView.sets, view, Prod.mk.injEq] at h
  obtain ⟨hmembers, hlocal, hremote⟩ := h
  have hsame : ∀ p : Place, p ≠ .outside → m'.inPlace p = m.inPlace p := by
    intro p hp
    cases p with
    | member => exact hmembers
    | localPending => exact hlocal
    | remotePending => exact hremote
    | outside => exact absurd rfl hp
  have hiff : ∀ p : Place, p ≠ .outside → (m'.placeOf x = p ↔ m.placeOf x = p) := by
    intro p hp
    rw [← mem_inPlace hp, ← mem_inPlace hp, hsame p hp]
  by_cases hout : m.placeOf x = .outside
  · by_cases hout' : m'.placeOf x = .outside
    · rw [hout, hout']
    · exact ((hiff _ hout').mp rfl).symm
  · exact (hiff _ hout).mpr rfl

/-! ## Batches -/

/-- The signal of a list of moves. -/
def signalOf (provenance : Provenance) (l : List (Handle × Place)) : MembersChanged where
  message := provenance.message
  added := movedTo l .member
  removed := movedTo l .outside
  localPending := movedTo l .localPending
  remotePending := movedTo l .remotePending
  actor := provenance.actor
  reason := provenance.reason

theorem mem_signalOf {provenance : Provenance} {l : List (Handle × Place)} {h : Handle} :
    h ∈ (signalOf provenance l).added ++ (signalOf provenance l).removed ++
      (signalOf provenance l).localPending ++ (signalOf provenance l).remotePending ↔
    ∃ p, (h, p) ∈ l := by
  simp only [signalOf, List.mem_append, mem_movedTo]
  constructor
  · rintro (((h | h) | h) | h) <;> exact ⟨_, h⟩
  · rintro ⟨p, h⟩
    cases p with
    | member => exact .inl (.inl (.inl h))
    | outside => exact .inl (.inl (.inr h))
    | localPending => exact .inl (.inr h)
    | remotePending => exact .inr h

/-- Dropping what moved and putting in what came gives the handles that are in a place. -/
theorem refresh_inPlace (m : Membership) (c : MembershipChange) {p : Place} (hp : p ≠ .outside) :
    GroupView.refresh (m.inPlace p) (signalOf c.provenance (m.moves c)) (movedTo (m.moves c) p) =
      (m.change c).membership.inPlace p := by
  refine SortedSet.ext_mem fun h => ?_
  rw [GroupView.refresh, SortedSet.mem_union, SortedSet.mem_filter, SortedSet.mem_ofList,
    decide_eq_true_iff, mem_signalOf, mem_movedTo, mem_inPlace hp, mem_inPlace hp, placeOf_change]
  simp only [mem_moves]
  cases hplace : c.places.get? h with
  | none => simp
  | some q =>
    by_cases hq : q = p
    · subst hq
      by_cases hstays : m.placeOf h = q <;> simp [hstays]
    · by_cases hstays : m.placeOf h = q
      · simp [hstays]
      · simp [hq, hstays]

/-- A batch that moves nobody leaves the view as it is. -/
theorem view_change_of_still (h : m.moves c = []) : (m.change c).membership.view = m.view := by
  have hplace : ∀ x, (m.change c).membership.placeOf x = m.placeOf x := by
    intro x
    rw [placeOf_change]
    cases hp : c.places.get? x with
    | none => rfl
    | some p =>
      by_cases hstays : m.placeOf x = p
      · exact hstays.symm
      · have : (x, p) ∈ m.moves c := mem_moves.mpr ⟨hp, hstays⟩
        simp [h] at this
  have hsame : ∀ p : Place, p ≠ .outside →
      (m.change c).membership.inPlace p = m.inPlace p := by
    intro p hp
    refine SortedSet.ext_mem fun x => ?_
    rw [mem_inPlace hp, mem_inPlace hp, hplace]
  simp only [view, GroupView.mk.injEq]
  exact ⟨hsame .member (by decide), hsame .localPending (by decide),
    hsame .remotePending (by decide), change_flags m c⟩

/-- A client that hears of a batch knows the group as it is afterwards. -/
theorem receive_change (m : Membership) (c : MembershipChange) :
    (m.change c).signal.toList.foldl GroupView.receive m.view = (m.change c).membership.view := by
  rw [change_signal, announcement]
  by_cases hmoves : m.moves c = []
  · rw [hmoves, view_change_of_still hmoves]
    rfl
  · have hsome : (m.moves c).isEmpty = false := by simpa using hmoves
    rw [hsome]
    have hheard : m.view.receive (.membersChanged (signalOf c.provenance (m.moves c))) =
        (m.change c).membership.view := by
      simp only [GroupView.receive, view, GroupView.mk.injEq]
      exact ⟨refresh_inPlace m c (p := .member) (by decide),
        refresh_inPlace m c (p := .localPending) (by decide),
        refresh_inPlace m c (p := .remotePending) (by decide), (change_flags m c).symm⟩
    exact hheard

/-- A batch is signalled exactly if it changes one of the three sets. -/
theorem changed_change_iff (m : Membership) (c : MembershipChange) :
    (m.change c).changed = true ↔ (m.change c).membership.view.sets ≠ m.view.sets := by
  rw [GroupUpdate.changed, change_signal, announcement]
  cases hmoves : m.moves c with
  | nil => simp [view_change_of_still hmoves]
  | cons e l =>
    simp only [List.isEmpty_cons, Bool.false_eq_true, if_false, Option.isSome_some, true_iff]
    intro hsets
    obtain ⟨hp, hmoved⟩ := mem_moves.mp (hmoves ▸ List.mem_cons_self : (e.1, e.2) ∈ m.moves c)
    have := placeOf_eq_of_sets hsets e.1
    rw [placeOf_change, hp] at this
    exact hmoved this.symm

theorem ordered_signalOf (m : Membership) (c : MembershipChange) (provenance : Provenance) :
    (signalOf provenance (m.moves c)).Ordered where
  ascending := by
    have hmoved : ∀ p, (movedTo (m.moves c) p).Pairwise fun h h' => compare h h' = .lt := fun p =>
      ((c.places.ascending.filter _).filter _).map _ fun _ _ h => h
    intro l hl
    simp only [signalOf, List.mem_cons, List.not_mem_nil, or_false] at hl
    rcases hl with rfl | rfl | rfl | rfl
    · exact hmoved .member
    · exact hmoved .outside
    · exact hmoved .localPending
    · exact hmoved .remotePending
  disjoint := by
    have happart : ∀ {p q : Place}, p ≠ q → ∀ h ∈ movedTo (m.moves c) p,
        h ∉ movedTo (m.moves c) q := by
      intro p q hpq h hp hq
      have hp := (mem_moves.mp (mem_movedTo.mp hp)).1
      have hq := (mem_moves.mp (mem_movedTo.mp hq)).1
      rw [hp, Option.some.injEq] at hq
      exact hpq hq
    simp only [signalOf, List.pairwise_cons, List.mem_cons, List.not_mem_nil, or_false,
      forall_eq_or_imp, forall_eq, List.Pairwise.nil, and_true, false_imp_iff, implies_true]
    exact ⟨⟨happart (by decide), happart (by decide), happart (by decide)⟩,
      ⟨happart (by decide), happart (by decide)⟩, happart (by decide)⟩

/-! ## Flags -/

/-- Setting and clearing flags leaves them as they are exactly if none of them toggles. -/
theorem flags_kept_iff (f add remove : GroupFlags) :
    (f.union (add.diff f)).diff (remove.inter f) = f ↔
      add.diff f = .none ∧ remove.inter f = .none := by
  obtain ⟨f⟩ := f
  simp only [GroupFlags.union, GroupFlags.diff, GroupFlags.inter, GroupFlags.none,
    GroupFlags.mk.injEq, BitVec.eq_of_getElem_eq_iff]
  rw [← forall_and]
  refine forall_congr' fun i => ?_
  rw [← forall_and]
  refine forall_congr' fun hi => ?_
  simp only [BitVec.getElem_or, BitVec.getElem_and, BitVec.getElem_not]
  cases f[i] <;> cases add.bits[i] <;> cases remove.bits[i] <;> simp

end Membership

/-! ## Operations -/

/-- What the caller of an operation promises: no handle is sent to two places, and no flag is both
set and cleared. -/
def GroupOperation.Valid : GroupOperation → Prop
  | change members departures localPending remotePending _ =>
    MembershipChange.disjoint members departures localPending remotePending = true
  | changeFlags add remove => add.inter remove = .none
  | removeAll _ | addOwner _ _ => True

instance : DecidablePred GroupOperation.Valid := fun op =>
  match op with
  | .change _ _ _ _ _ => inferInstanceAs (Decidable (_ = _))
  | .changeFlags _ _ => inferInstanceAs (Decidable (_ = _))
  | .removeAll _ | .addOwner _ _ => inferInstanceAs (Decidable True)

/-- What the outcome of an operation on `m` tells clients: a copy of `m` becomes a copy of the new
state, there is a signal exactly if there is news, and its lists are in order. -/
structure GroupUpdate.Faithful (u : GroupUpdate) (m : Membership) (op : GroupOperation) : Prop where
  heard : u.signal.toList.foldl GroupView.receive m.view = u.membership.view
  changed :
    match op with
    | .change _ _ _ _ _ | .removeAll _ =>
      u.changed = true ↔ u.membership.view.sets ≠ m.view.sets
    | .changeFlags _ _ => u.changed = true ↔ u.membership.flags ≠ m.flags
    | .addOwner _ _ => u.changed = false
  ordered : ∀ e, u.signal = some (.membersChanged e) → e.Ordered

namespace Membership

theorem ordered_change (m : Membership) (c : MembershipChange) {e : MembersChanged}
    (h : (m.change c).signal = some (.membersChanged e)) : e.Ordered := by
  rw [change_signal, announcement] at h
  by_cases hmoves : (m.moves c).isEmpty = true
  · simp [hmoves] at h
  · rw [if_neg hmoves, Option.some.injEq, Signal.membersChanged.injEq] at h
    exact h ▸ ordered_signalOf m c c.provenance

/-- An operation whose caller keeps the promise succeeds and is told to clients faithfully. -/
theorem perform_faithful (m : Membership) {op : GroupOperation} (hop : op.Valid) :
    ∃ u, m.perform op = .ok u ∧ u.Faithful m op := by
  cases op with
  | change members departures localPending remotePending provenance =>
    have hbatch : ∃ c, MembershipChange.ofSets? members departures localPending remotePending
        provenance = some c := ⟨_, if_pos hop⟩
    obtain ⟨c, hc⟩ := hbatch
    refine ⟨m.change c, by simp only [perform, hc], receive_change m c, ?_, ?_⟩
    · exact changed_change_iff m c
    · exact fun e => ordered_change m c
  | removeAll reason =>
    exact ⟨_, rfl, receive_change m _, changed_change_iff m _, fun e => ordered_change m _⟩
  | changeFlags add remove =>
    have hkept := flags_kept_iff m.flags add remove
    have hallowed : ¬ add.inter remove ≠ .none := not_not_intro hop
    simp only [perform, changeFlags, if_neg hallowed]
    by_cases hnone : add.diff m.flags = .none ∧ remove.inter m.flags = .none
    · refine ⟨_, if_pos hnone, rfl, ?_, fun e he => by cases he⟩
      simp [GroupUpdate.changed]
    · refine ⟨_, if_neg hnone, rfl, ?_, fun e he => by cases he⟩
      simpa [GroupUpdate.changed] using fun h => hnone (hkept.mp h)
  | addOwner h owner => exact ⟨_, rfl, rfl, rfl, fun e he => by cases he⟩

end Membership

namespace Group

/-- The signals of a run are a faithful log: whoever read the group at the start and follows them
knows the three sets and the flags at the end. Every further operation sends at most one signal,
sends one exactly if what it is about changes, and the lists of each signal are ascending and share
no handle. -/
theorem run_signals_faithful (ops : List GroupOperation) (hops : ∀ op ∈ ops, op.Valid) (g : Group) :
    ∃ g', g.run ops = .ok g' ∧
      (∃ sent, g'.signals = g.signals ++ sent ∧
        sent.foldl GroupView.receive g.membership.view = g'.membership.view ∧
        ∀ e, .membersChanged e ∈ sent → e.Ordered) ∧
      ∀ op : GroupOperation, op.Valid →
        ∃ u, g'.membership.perform op = .ok u ∧ g'.step op = .ok (g'.update u) ∧
          u.Faithful g'.membership op := by
  induction ops generalizing g with
  | nil =>
    refine ⟨g, rfl, ⟨[], (List.append_nil _).symm, rfl, by simp⟩, fun op hop => ?_⟩
    obtain ⟨u, hu, hfaithful⟩ := g.membership.perform_faithful hop
    exact ⟨u, hu, by rw [step, hu]; rfl, hfaithful⟩
  | cons op ops ih =>
    obtain ⟨u, hu, hfaithful⟩ := g.membership.perform_faithful (hops op List.mem_cons_self)
    obtain ⟨g', hrun, ⟨sent, hsignals, hview, hordered⟩, hlater⟩ :=
      ih (fun op hop => hops op (List.mem_cons_of_mem _ hop)) (g.update u)
    have hstep : g.step op = .ok (g.update u) := by rw [step, hu]; rfl
    refine ⟨g', ?_, ⟨u.signal.toList ++ sent, ?_, ?_, ?_⟩, hlater⟩
    · rw [run, List.foldlM_cons]
      exact Except.bind_eq_ok.mpr ⟨_, hstep, hrun⟩
    · rw [hsignals, update, List.append_assoc]
    · rw [List.foldl_append, hfaithful.heard]
      exact hview
    · intro e he
      obtain he | he := List.mem_append.mp he
      · exact hfaithful.ordered e (Option.mem_toList.mp he)
      · exact hordered e he

/-- Handles come in, one is promoted while another leaves, flags toggle, and all are removed. -/
def comingAndGoing : List GroupOperation :=
  let ann : Handle := .first
  let bob := ann.next
  let eve := bob.next
  let dan := eve.next
  [.change (.ofList [ann, bob]) .empty (.ofList [eve]) (.ofList [dan]) .unstated,
    .change (.ofList [eve, bob]) (.ofList [ann]) (.ofList [dan]) .empty .unstated,
    .changeFlags .canAdd .canRemove, .addOwner bob ann, .changeFlags .none .canAdd,
    .removeAll .kicked]

theorem comingAndGoing_faithful :
    ∃ g', (new ⟨"/group"⟩ (.onDemand .contact) none .canRemove).run comingAndGoing = .ok g' ∧
      ∃ sent, g'.signals = sent ∧
        sent.foldl GroupView.receive ⟨.empty, .empty, .empty, .canRemove⟩ = g'.membership.view := by
  obtain ⟨g', hrun, ⟨sent, hsent, hview, -⟩, -⟩ :=
    run_signals_faithful comingAndGoing (by decide)
      (new ⟨"/group"⟩ (.onDemand .contact) none .canRemove)
  exact ⟨g', hrun, sent, hsent, hview⟩

end Group

end Telepathy

import Telepathy.Group.Sets
import Telepathy.Proofs.Fallible
import Telepathy.Proofs.Group.Batch

set_option autoImplicit false

/-!
# Operations and their faults

Whether an operation on a group ends in a fault can be told from the operation alone: its four sets
overlap, or its flags are to be both set and cleared. A run ends in the fault of the first operation
that is at fault. A batch of four sets that do not overlap sends each handle where its set says.
-/

namespace Telepathy

namespace Room

/-- The place of those in a set. -/
def place : Room → Place
  | members => .member
  | localPending => .localPending
  | remotePending => .remotePending

/-- The handles that a batch puts into a set. -/
def sent (joining applying invited : SortedSet Handle) : Room → SortedSet Handle
  | members => joining
  | localPending => applying
  | remotePending => invited

theorem forall_iff {P : Room → Prop} :
    (∀ r, P r) ↔ P .members ∧ P .localPending ∧ P .remotePending :=
  ⟨fun h => ⟨h _, h _, h _⟩, fun ⟨hm, hl, hr⟩ r => by cases r <;> assumption⟩

end Room

namespace MembershipChange

variable {joining leaving applying invited : SortedSet Handle} {provenance : Provenance}
  {c : MembershipChange}

theorem ofSets?_eq_some_iff :
    ofSets? joining leaving applying invited provenance = some c ↔
      disjoint joining leaving applying invited = true ∧
      c = ⟨send (send (send (send .empty joining .member) leaving .outside) applying .localPending)
        invited .remotePending, provenance⟩ := by
  rw [ofSets?, Option.ite_none_right_eq_some, Option.some.injEq, eq_comm (b := c)]

theorem ofSets?_eq_none_iff :
    ofSets? joining leaving applying invited provenance = none ↔
      disjoint joining leaving applying invited = false := by
  simp [ofSets?]

theorem disjoint_iff :
    disjoint joining leaving applying invited = true ↔
      ∀ h, (h ∈ joining → h ∉ leaving ∧ h ∉ applying ∧ h ∉ invited) ∧
        (h ∈ leaving → h ∉ applying ∧ h ∉ invited) ∧
        (h ∈ applying → h ∉ invited) := by
  simp only [disjoint, Bool.and_eq_true, Bool.not_eq_true', SortedSet.intersects_eq_false_iff]
  constructor
  · rintro ⟨⟨⟨⟨⟨har, hal⟩, hap⟩, hrl⟩, hrp⟩, hlp⟩ h
    exact ⟨fun ha => ⟨har h ha, hal h ha, hap h ha⟩, fun hr => ⟨hrl h hr, hrp h hr⟩, hlp h⟩
  · intro hd
    exact ⟨⟨⟨⟨⟨fun h ha => ((hd h).1 ha).1, fun h ha => ((hd h).1 ha).2.1⟩,
      fun h ha => ((hd h).1 ha).2.2⟩, fun h hr => ((hd h).2.1 hr).1⟩,
      fun h hr => ((hd h).2.1 hr).2⟩, fun h => (hd h).2.2⟩

/-- Where a batch of four sets that do not overlap sends a handle. -/
theorem get?_ofSets?
    (hc : ofSets? joining leaving applying invited provenance = some c) (h : Handle) :
    c.places.get? h =
      if h ∈ joining then some .member
      else if h ∈ leaving then some .outside
      else if h ∈ applying then some .localPending
      else if h ∈ invited then some .remotePending
      else none := by
  obtain ⟨hdisjoint, rfl⟩ := ofSets?_eq_some_iff.mp hc
  obtain ⟨hjoin, hleave, happly⟩ := disjoint_iff.mp hdisjoint h
  simp only [get?_send]
  by_cases ha : h ∈ joining
  · simp [ha, hjoin ha]
  · by_cases hr : h ∈ leaving
    · simp [ha, hr, hleave hr]
    · by_cases hl : h ∈ applying
      · simp [ha, hr, hl, happly hl]
      · simp [ha, hr, hl]

theorem provenance_ofSets?
    (hc : ofSets? joining leaving applying invited provenance = some c) :
    c.provenance = provenance := by
  obtain ⟨-, rfl⟩ := ofSets?_eq_some_iff.mp hc
  rfl

/-- A batch sends to the place of a set whom it puts there. -/
theorem get?_ofSets?_eq_place
    (hc : ofSets? joining leaving applying invited provenance = some c) {h : Handle} {r : Room} :
    c.places.get? h = some r.place ↔ h ∈ r.sent joining applying invited := by
  obtain ⟨hjoin, hleave, happly⟩ := disjoint_iff.mp (ofSets?_eq_some_iff.mp hc).1 h
  rw [get?_ofSets? hc]
  by_cases ha : h ∈ joining
  · cases r <;> simp [Room.sent, Room.place, ha, hjoin ha]
  · by_cases hr : h ∈ leaving
    · cases r <;> simp [Room.sent, Room.place, ha, hr, hleave hr]
    · by_cases hl : h ∈ applying
      · cases r <;> simp [Room.sent, Room.place, ha, hr, hl, happly hl]
      · by_cases hp : h ∈ invited <;> cases r <;> simp [Room.sent, Room.place, ha, hr, hl, hp]

/-- A batch makes those wait who are in its third set. -/
theorem get?_ofSets?_eq_localPending
    (hc : ofSets? joining leaving applying invited provenance = some c) {h : Handle} :
    c.places.get? h = some .localPending ↔ h ∈ applying :=
  get?_ofSets?_eq_place hc (r := .localPending)

/-- A batch sends those out who are in its second set. -/
theorem get?_ofSets?_eq_outside
    (hc : ofSets? joining leaving applying invited provenance = some c) {h : Handle} :
    c.places.get? h = some .outside ↔ h ∈ leaving := by
  obtain ⟨hjoin, -, -⟩ := disjoint_iff.mp (ofSets?_eq_some_iff.mp hc).1 h
  rw [get?_ofSets? hc]
  by_cases ha : h ∈ joining
  · simp [ha, (hjoin ha).1]
  · by_cases hr : h ∈ leaving
    · simp [ha, hr]
    · by_cases hl : h ∈ applying <;> by_cases hp : h ∈ invited <;> simp [ha, hr, hl, hp]

end MembershipChange

namespace GroupOperation

/-- The fault by which an operation ends a run, if it breaks the promise of its caller. -/
def fault? : GroupOperation → Option Fault
  | change joining leaving applying invited _ =>
    if MembershipChange.disjoint joining leaving applying invited then none
    else some .overlappingChange
  | changeFlags add remove =>
    if add.inter remove = .none then none else some (.contradictoryFlags (add.inter remove))
  | removeAll _ | addOwner _ _ => none

end GroupOperation

namespace Membership

variable {m : Membership}

/-- Flags are changed unless the change contradicts itself. -/
theorem changeFlags_cases (m : Membership) (add remove : GroupFlags) :
    (add.inter remove = .none ∧ ∃ u, m.changeFlags add remove = .ok u) ∨
    (add.inter remove ≠ .none ∧
      m.changeFlags add remove = .error (.contradictoryFlags (add.inter remove))) := by
  unfold changeFlags
  by_cases hnone : add.inter remove = .none
  · refine .inl ⟨hnone, ?_⟩
    rw [if_neg (not_not_intro hnone)]
    dsimp only
    split
    · exact ⟨_, rfl⟩
    · exact ⟨_, rfl⟩
  · exact .inr ⟨hnone, if_pos hnone⟩

/-- Nothing but the flags changes with them, and nobody is told of anything else. -/
theorem changeFlags_frame {add remove : GroupFlags} {u : GroupUpdate}
    (hu : m.changeFlags add remove = .ok u) :
    (∃ flags, u.membership = { m with flags }) ∧ u.retained = [] ∧ u.released = [] ∧
      ∀ s, u.signal = some s → ∃ added removed, s = .groupFlagsChanged added removed := by
  unfold changeFlags at hu
  split at hu
  · cases hu
  · dsimp only at hu
    split at hu
    · cases hu
      exact ⟨⟨m.flags, rfl⟩, rfl, rfl, nofun⟩
    · cases hu
      exact ⟨⟨_, rfl⟩, rfl, rfl, fun s hs => ⟨_, _, (Option.some.inj hs).symm⟩⟩

/-- Four sets that do not overlap are carried out as one batch. -/
theorem perform_change_eq_ok {joining leaving applying invited : SortedSet Handle}
    {provenance : Provenance} {u : GroupUpdate} :
    m.perform (.change joining leaving applying invited provenance) = .ok u ↔
      ∃ c, MembershipChange.ofSets? joining leaving applying invited provenance = some c ∧
        m.change c = u := by
  rw [perform]
  cases MembershipChange.ofSets? joining leaving applying invited provenance with
  | none => simp
  | some c => simp

/-- An operation succeeds on every group or on none. -/
theorem perform_eq (m : Membership) (op : GroupOperation) :
    (∃ u, m.perform op = .ok u ∧ op.fault? = none) ∨
      ∃ fault, m.perform op = .error fault ∧ op.fault? = some fault := by
  cases op with
  | change joining leaving applying invited provenance =>
    rw [perform]
    cases hc : MembershipChange.ofSets? joining leaving applying invited provenance with
    | some c =>
      exact .inl ⟨_, rfl, if_pos (MembershipChange.ofSets?_eq_some_iff.mp hc).1⟩
    | none =>
      refine .inr ⟨_, rfl, if_neg ?_⟩
      rw [MembershipChange.ofSets?_eq_none_iff.mp hc]
      decide
  | removeAll reason => exact .inl ⟨_, rfl, rfl⟩
  | changeFlags add remove =>
    obtain ⟨hnone, u, hu⟩ | ⟨hboth, hu⟩ := m.changeFlags_cases add remove
    · exact .inl ⟨u, hu, if_pos hnone⟩
    · exact .inr ⟨_, hu, if_neg hboth⟩
  | addOwner h owner => exact .inl ⟨_, rfl, rfl⟩

end Membership

namespace Group

/-- A run ends in the fault of the first operation that is at fault, or well. -/
theorem run_faults (g : Group) (ops : List GroupOperation) :
    match g.run ops with
    | .ok _ => ops.findSome? (·.fault?) = none
    | .error fault => ops.findSome? (·.fault?) = some fault := by
  induction ops generalizing g with
  | nil => rfl
  | cons op ops ih =>
    rw [run, List.foldlM_cons, List.findSome?_cons, step]
    obtain ⟨u, hu, hfault⟩ | ⟨fault, hu, hfault⟩ := g.membership.perform_eq op
    · rw [hu, hfault]
      exact ih (g.update u)
    · rw [hu, hfault]
      rfl

end Group

end Telepathy

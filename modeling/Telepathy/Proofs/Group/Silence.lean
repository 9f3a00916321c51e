import Telepathy.Proofs.Group.Operations
import Telepathy.Proofs.Group.Signals

set_option autoImplicit false

/-!
# Batches of which clients are not told

A batch that moves nobody sends no signal, so a client that has read the group hears nothing of it.
The main law says what such a batch does all the same: the three sets, the flags, the owners and the
local user's handle stay, but those who wait and are named to wait again carry the provenance of the
batch from then on. The group is the same as before exactly if they carried it already.
-/

namespace Telepathy

/-- A standing after somebody was named again, to wait or not. -/
def Standing.restated (provenance : Provenance) (waits : Bool) : Standing → Standing
  | .localPending stated => .localPending (if waits then provenance else stated)
  | s => s

namespace Membership

/-! ## What a batch does besides moving handles -/

/-- Who stays in the group, or was not in it, keeps the owner. -/
theorem settle_owners {m : Membership} {provenance : Provenance} {h : Handle} {p : Place}
    (hp : p = .outside → m.placeOf h = .outside) :
    (m.settle provenance h p).owners = m.owners := by
  unfold settle
  cases hs : Standing.ofPlace? p provenance with
  | some s => rfl
  | none =>
    have hout : p = .outside := by
      cases p with
      | outside => rfl
      | member | localPending | remotePending => cases hs
    have habsent : m.contains h = false := by
      have hplace := hp hout
      rw [placeOf] at hplace
      rw [contains, SortedMap.contains]
      cases hget : m.standings.get? h with
      | none => rfl
      | some s =>
        rw [hget] at hplace
        cases s <;> cases hplace
    simp [habsent]

/-- Handles that are sent where they are, one after the other, leave the owners. -/
theorem foldl_send_still {provenance : Provenance} {l : List (Handle × Place)} {u : Progress}
    (hl : ∀ e ∈ l, u.membership.placeOf e.1 = e.2) :
    (l.foldl (fun u e => u.send provenance e.1 e.2) u).membership.owners =
      u.membership.owners := by
  induction l generalizing u with
  | nil => rfl
  | cons e l ih =>
    have hhead := hl e List.mem_cons_self
    have hplace : ∀ h,
        (u.send provenance e.1 e.2).membership.placeOf h = u.membership.placeOf h := by
      intro h
      rw [placeOf, Progress.send, settle_get?]
      by_cases heq : h = e.1
      · rw [if_pos heq, Standing.place_ofPlace?, heq, hhead]
      · rw [if_neg heq, placeOf]
    have howners := ih (u := u.send provenance e.1 e.2) fun e' he' => by
      rw [hplace, hl e' (List.mem_cons_of_mem _ he')]
    rw [List.foldl_cons]
    exact howners.trans (settle_owners fun hout => hhead.trans hout)

section Silent

variable {m : Membership} {c : MembershipChange}

/-- Clients are not told of a batch that moves nobody. -/
theorem changed_change_eq_false_iff : (m.change c).changed = false ↔ m.moves c = [] := by
  rw [GroupUpdate.changed, change_signal, announcement]
  cases m.moves c with
  | nil => simp
  | cons e l => simp

theorem placeOf_of_still (hstill : m.moves c = []) {h : Handle} {p : Place}
    (hp : c.places.get? h = some p) : m.placeOf h = p := by
  refine Decidable.byContradiction fun hmoved => ?_
  have hmem : (h, p) ∈ m.moves c := mem_moves.mpr ⟨hp, hmoved⟩
  rw [hstill] at hmem
  cases hmem

theorem owners_change_of_still (hstill : m.moves c = []) :
    (m.change c).membership.owners = m.owners ∧ (m.change c).membership.self = m.self :=
  ⟨foldl_send_still fun _ he => placeOf_of_still hstill (SortedMap.get?_eq_some_iff.mpr he),
    change_self m c⟩

/-- Of those who wait, a batch that moves nobody restates the provenance of those it names. -/
theorem standings_change_of_still (hstill : m.moves c = []) :
    (m.change c).membership.standings = m.standings.mapValues fun h s =>
      s.restated c.provenance (c.places.get? h = some .localPending) := by
  refine SortedMap.ext_get? fun h => ?_
  rw [change_get?, SortedMap.get?_mapValues]
  cases hp : c.places.get? h with
  | none =>
    cases m.standings.get? h with
    | none => rfl
    | some s => cases s <;> rfl
  | some p =>
    have hplace := placeOf_of_still hstill hp
    rw [placeOf] at hplace
    cases hs : m.standings.get? h with
    | none =>
      rw [hs] at hplace
      cases hplace
      rfl
    | some s =>
      rw [hs] at hplace
      cases hplace
      cases s <;> rfl

/-- What the list of those who wait says after a batch that moves nobody. -/
theorem localPendingInfo_change_of_still (hstill : m.moves c = []) :
    (m.change c).membership.localPendingInfo = m.localPendingInfo.map fun p =>
      if c.places.get? p.handle = some .localPending then ⟨p.handle, c.provenance⟩ else p := by
  rw [localPendingInfo, localPendingInfo, standings_change_of_still hstill, SortedMap.mapValues,
    List.filterMap_map, List.map_filterMap]
  refine congrArg (m.standings.toList.filterMap ·) (funext fun e => ?_)
  obtain ⟨h, s⟩ := e
  cases s with
  | member | remotePending => rfl
  | localPending stated =>
    by_cases hwaits : c.places.get? h = some .localPending
    · simp [Standing.restated, hwaits]
    · simp [Standing.restated, hwaits]

/-- A batch that moves nobody changes nothing exactly if it restates nothing new. -/
theorem change_eq_self_iff_of_still (hstill : m.moves c = []) :
    (m.change c).membership = m ↔ ∀ p ∈ m.localPendingInfo,
      c.places.get? p.handle = some .localPending → p.provenance = c.provenance := by
  have hinfo := localPendingInfo_change_of_still hstill
  constructor
  · intro hsame p hp hwaits
    rw [hsame] at hinfo
    have hkept := List.map_inj_left.mp ((List.map_id _).trans hinfo) p hp
    rw [if_pos hwaits] at hkept
    exact congrArg LocalPending.provenance hkept
  · intro hstated
    have hstandings : (m.change c).membership.standings = m.standings := by
      refine SortedMap.ext_get? fun h => ?_
      rw [standings_change_of_still hstill, SortedMap.get?_mapValues]
      cases hs : m.standings.get? h with
      | none => rfl
      | some s =>
        cases s with
        | member | remotePending => rfl
        | localPending stated =>
          have hwaits := hstated ⟨h, stated⟩ (mem_localPendingInfo.mpr hs)
          by_cases hp : c.places.get? h = some .localPending
          · simp [Standing.restated, hp, ← hwaits hp]
          · simp [Standing.restated, hp]
    obtain ⟨howners, hself⟩ := owners_change_of_still hstill
    have hflags := change_flags m c
    generalize (m.change c).membership = m' at hstandings howners hself hflags
    obtain ⟨_, _, _, _⟩ := m'
    obtain ⟨_, _, _, _⟩ := m
    cases hstandings
    cases howners
    cases hself
    cases hflags
    rfl

end Silent

/-! ## What clients are not told -/

/-- A batch of four sets that do not overlap succeeds. If clients are not told of it, the local
user's handle, the three sets, the flags and the owners are as before, and those who wait are listed
as before, except that those whom the batch names to wait carry its provenance; nothing has changed
at all exactly if they carried that already. -/
theorem silent_change_restates (m : Membership)
    {joining leaving applying invited : SortedSet Handle} (provenance : Provenance)
    (hdisjoint : MembershipChange.disjoint joining leaving applying invited = true) :
    ∃ u, m.perform (.change joining leaving applying invited provenance) = .ok u ∧
      (u.changed = false →
        u.membership.self = m.self ∧ u.membership.view = m.view ∧
        u.membership.owners = m.owners ∧
        u.membership.localPendingInfo = (m.localPendingInfo.map fun p =>
          if p.handle ∈ applying then ⟨p.handle, provenance⟩ else p) ∧
        (u.membership = m ↔
          ∀ p ∈ m.localPendingInfo, p.handle ∈ applying → p.provenance = provenance)) := by
  obtain ⟨c, hc⟩ : ∃ c, MembershipChange.ofSets? joining leaving applying invited provenance =
      some c := ⟨_, if_pos hdisjoint⟩
  refine ⟨m.change c, by simp only [perform, hc], fun hsilent => ?_⟩
  have hstill := changed_change_eq_false_iff.mp hsilent
  have hinfo := localPendingInfo_change_of_still hstill
  have hself := change_eq_self_iff_of_still hstill
  simp only [MembershipChange.get?_ofSets?_eq_localPending hc,
    MembershipChange.provenance_ofSets? hc] at hinfo hself
  obtain ⟨howners, hlocal⟩ := owners_change_of_still hstill
  exact ⟨hlocal, view_change_of_still hstill, howners, hinfo, hself⟩

section Samples

/-- A contact. -/
def alice : Handle := .first

/-- How somebody came to wait. -/
def invitedByAlice : Provenance := ⟨some alice, .invited, "hello"⟩

/-- One who waits by Alice's word, and Alice as the only member. -/
def oneWaiting : Membership :=
  (((new none .none).change (.ofSet (.ofList [alice]) .member .unstated)).membership.change
    (.ofSet (.ofList [alice.next]) .localPending invitedByAlice)).membership

/-- A member is added again, one who waits is to wait again, and one who was never there leaves. -/
theorem oneWaiting_kept :
    MembershipChange.disjoint (.ofList [alice]) (.ofList [alice.next.next]) (.ofList [alice.next])
        .empty = true ∧
      ∃ u, oneWaiting.perform (.change (.ofList [alice]) (.ofList [alice.next.next])
          (.ofList [alice.next]) .empty invitedByAlice) = .ok u ∧
        u.changed = false ∧ u.membership = oneWaiting := by
  have hdisjoint : MembershipChange.disjoint (.ofList [alice]) (.ofList [alice.next.next])
      (.ofList [alice.next]) .empty = true := by decide
  obtain ⟨u, hu, hsilent⟩ := silent_change_restates oneWaiting invitedByAlice hdisjoint
  obtain ⟨u', hu', hchanged⟩ : ∃ u', oneWaiting.perform (.change (.ofList [alice])
      (.ofList [alice.next.next]) (.ofList [alice.next]) .empty invitedByAlice) = .ok u' ∧
      (!u'.changed) = true := Except.eq_ok_of_any (by decide +kernel)
  cases hu.symm.trans hu'
  rw [Bool.not_eq_true'] at hchanged
  have hstated : ∀ p ∈ oneWaiting.localPendingInfo, p.handle ∈ SortedSet.ofList [alice.next] →
      p.provenance = invitedByAlice := by decide +kernel
  exact ⟨hdisjoint, u, hu, hchanged, (hsilent hchanged).2.2.2.2.mpr hstated⟩

/-- Who waits already and is named again with another message carries the new one, and clients hear
nothing of it. -/
theorem oneWaiting_restated :
    ∃ u, oneWaiting.perform
        (.change .empty .empty (.ofList [alice.next]) .empty .unstated) = .ok u ∧
      u.changed = false ∧ u.signal = none ∧
      oneWaiting.localPendingInfo = [⟨alice.next, invitedByAlice⟩] ∧
      u.membership.localPendingInfo = [⟨alice.next, .unstated⟩] := by
  obtain ⟨u, hu, hall⟩ : ∃ u, oneWaiting.perform
      (.change .empty .empty (.ofList [alice.next]) .empty .unstated) = .ok u ∧
      decide (u.changed = false ∧ u.signal = none ∧
        oneWaiting.localPendingInfo = [⟨alice.next, invitedByAlice⟩] ∧
        u.membership.localPendingInfo = [⟨alice.next, .unstated⟩]) = true :=
    Except.eq_ok_of_any (by decide +kernel)
  exact ⟨u, hu, of_decide_eq_true hall⟩

end Samples

end Membership

end Telepathy

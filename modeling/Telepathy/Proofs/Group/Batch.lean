import Telepathy.Proofs.Group.Change

set_option autoImplicit false

/-!
# Where a batch sends whom

A batch built from sets of handles sends each of them where its set says, and a batch built from
readings sends each contact that is present where its reading says. Of a group that was empty before
a batch, the batch says it all.
-/

namespace Telepathy

namespace MembershipChange

/-- The last set that has a handle decides. -/
theorem get?_send (places : SortedMap Handle Place) (handles : SortedSet Handle) (p : Place)
    (h : Handle) :
    (send places handles p).get? h = if h ∈ handles then some p else places.get? h := by
  have hlist : ∀ (l : List Handle) (places : SortedMap Handle Place),
      (l.foldl (fun places h => places.insert h p) places).get? h =
        if h ∈ l then some p else places.get? h := by
    intro l
    induction l with
    | nil => simp
    | cons a l ih =>
      intro places
      rw [List.foldl_cons, ih, SortedMap.get?_insert]
      by_cases hl : h ∈ l
      · simp [hl]
      · by_cases ha : h = a <;> simp [hl, ha]
  exact hlist handles.toList places

theorem get?_ofSet (handles : SortedSet Handle) (p : Place) (provenance : Provenance)
    (h : Handle) :
    (ofSet handles p provenance).places.get? h = if h ∈ handles then some p else none :=
  get?_send .empty handles p h

theorem toList_ofSet (handles : SortedSet Handle) (p : Place) (provenance : Provenance) :
    (ofSet handles p provenance).places.toList = handles.toList.map (·, p) := by
  let places : SortedMap Handle Place :=
    ⟨handles.toList.map (·, p), handles.ascending.map (·, p) fun _ _ h => h⟩
  have hsame : (ofSet handles p provenance).places = places := by
    refine SortedMap.ext_get? fun h => ?_
    have hplace : ∀ q, places.get? h = some q ↔ h ∈ handles ∧ p = q := fun q => by
      rw [SortedMap.get?_eq_some_iff, List.mem_map]
      constructor
      · rintro ⟨h', hmem, heq⟩
        cases heq
        exact ⟨hmem, rfl⟩
      · rintro ⟨hmem, rfl⟩
        exact ⟨h, hmem, rfl⟩
    rw [get?_ofSet]
    split
    case isTrue hmem => exact ((hplace p).mpr ⟨hmem, rfl⟩).symm
    case isFalse hout => exact (Option.eq_none_iff_forall_ne_some.mpr fun q hq =>
      hout ((hplace q).mp hq).1).symm
  rw [hsame]

/-- A contact that is present goes where it was read to be, if it was read to be anywhere. -/
theorem get?_ofReadings (departed present : SortedSet Handle) (place? : Handle → Option Place)
    (provenance : Provenance) (h : Handle) :
    (ofReadings departed present place? provenance).places.get? h =
      (if h ∈ present then place? h else none).or
        (if h ∈ departed then some .outside else none) := by
  have hlist : ∀ (l : List Handle) (places : SortedMap Handle Place),
      (l.foldl (fun places h => (place? h).elim places (places.insert h ·)) places).get? h =
        (if h ∈ l then place? h else none).or (places.get? h) := by
    intro l
    induction l with
    | nil => simp
    | cons a l ih =>
      intro places
      have hfirst : ((place? a).elim places (places.insert a ·)).get? h =
          if h = a then (place? a).or (places.get? h) else places.get? h := by
        cases place? a with
        | none => simp
        | some p =>
          rw [Option.elim, SortedMap.get?_insert]
          simp
      rw [List.foldl_cons, ih, hfirst]
      by_cases ha : h = a
      · subst ha
        by_cases hl : h ∈ l <;> cases place? h <;> simp [hl]
      · simp [ha]
  rw [ofReadings, hlist, get?_send]
  rfl

end MembershipChange

namespace Membership

variable {m : Membership} {h : Handle}

theorem mem_members : h ∈ m.members ↔ m.standings.get? h = some .member := by
  rw [members, mem_inPlace (by decide), placeOf]
  cases m.standings.get? h with
  | none => simp
  | some s => cases s <;> simp [Standing.place]

theorem mem_localPending :
    h ∈ m.localPending ↔ ∃ provenance, m.standings.get? h = some (.localPending provenance) := by
  rw [localPending, mem_inPlace (by decide), placeOf]
  cases m.standings.get? h with
  | none => simp
  | some s => cases s <;> simp [Standing.place]

theorem mem_remotePending : h ∈ m.remotePending ↔ m.standings.get? h = some .remotePending := by
  rw [remotePending, mem_inPlace (by decide), placeOf]
  cases m.standings.get? h with
  | none => simp
  | some s => cases s <;> simp [Standing.place]

theorem mem_localPendingInfo {p : LocalPending} :
    p ∈ m.localPendingInfo ↔ m.standings.get? p.handle = some (.localPending p.provenance) := by
  rw [localPendingInfo, List.mem_filterMap, SortedMap.get?_eq_some_iff]
  constructor
  · rintro ⟨⟨h, s⟩, he, hs⟩
    cases s with
    | localPending provenance =>
      cases hs
      exact he
    | member | remotePending => cases hs
  · exact fun he => ⟨_, he, rfl⟩

/-- The list of those who wait names each of them once, in the order of the set. -/
theorem handles_localPendingInfo :
    m.localPendingInfo.map LocalPending.handle = m.localPending.toList := by
  simp only [localPendingInfo, localPending, inPlace, SortedMap.keysWhere, SortedMap.keys,
    SortedMap.filter]
  induction m.standings.toList with
  | nil => rfl
  | cons e l ih =>
    obtain ⟨h, s⟩ := e
    cases s with
    | localPending provenance => simpa [Standing.place] using ih
    | member | remotePending => simpa [Standing.place] using ih

/-- Of a set that is sent to one place, those move who are not there yet. -/
theorem moves_ofSet (m : Membership) (handles : SortedSet Handle) (p : Place) (w : Provenance) :
    m.moves (.ofSet handles p w) =
      (handles.filter fun h => m.placeOf h ≠ p).toList.map (·, p) := by
  rw [moves, MembershipChange.toList_ofSet, List.filter_map]
  rfl

theorem movedTo_map (handles : List Handle) (p q : Place) :
    movedTo (handles.map (·, p)) q = if p = q then handles else [] := by
  rw [movedTo, List.filter_map, List.map_map]
  by_cases hpq : p = q
  · simp [hpq, Function.comp_def]
  · simp [hpq, Function.comp_def]

end Membership

end Telepathy

import Telepathy.Proofs.ContactList.EarlyGroups

set_option autoImplicit false

/-!
# Filling the channels

The channels are filled in four steps that read the same data: contacts go to the subscribe, publish
and stored lists, those who ask go to the publish list once more, blocked contacts go to their list,
and contacts go to their groups. No step gets in the way of another, so if nobody was on any channel
before, everybody is afterwards where the server has them.
-/

namespace Telepathy

/-! ## Where the server has whom -/

/-- What a contact in these states is on a list. -/
def PresenceStates.standing? (states : PresenceStates) : ListKind → Option Standing
  | .subscribe =>
    match states.subscribe with
    | .yes => some .member
    | .ask => some .remotePending
    | .no => none
  | .publish =>
    match states.publish with
    | .yes => some .member
    | .ask => some (.localPending ⟨none, .none, states.publishRequest⟩)
    | .no => none
  | .stored => some .member
  -- The states do not say who is blocked.
  | .deny => none

namespace ContactServer

variable {σ : Type} (server : ContactServer σ) (data : σ)

/-- The groups that the server says a contact is in, by normalised name. -/
def groupsNamed (h : Handle) : List String :=
  (server.groupsOf data h).filterMap server.normaliseGroup

/-- What the server's data make of a contact on a channel. -/
def standing? (t : ContactTarget) (h : Handle) : Option Standing :=
  match t with
  | .list .subscribe =>
    if h ∈ server.contacts data then
      match (server.states data h).subscribe with
      | .yes => some .member
      | .ask => some .remotePending
      | .no => none
    else none
  | .list .publish =>
    if h ∈ server.contacts data then
      match (server.states data h).publish with
      | .yes => some .member
      | .ask => some (.localPending ⟨none, .none, (server.states data h).publishRequest⟩)
      | .no => none
    else none
  | .list .stored => if h ∈ server.contacts data then some .member else none
  | .list .deny => if h ∈ server.blocked data then some .member else none
  | .group name =>
    if h ∈ server.contacts data ∧ name ∈ server.groupsNamed data h then some .member else none

end ContactServer

namespace ContactScene

variable {σ : Type} {server : ContactServer σ} {s s₁ s₂ : ContactScene σ}

/-! ## The lists -/

section ApplyContacts

variable (s : ContactScene σ) (changed departed : SortedSet Handle)

/-- A batch that reads contacts removes those who departed, and names those others for whom there is
a place. -/
theorem get?_ofContacts (place? : Handle → Option Place) (h : Handle) :
    (MembershipChange.ofReadings departed (changed.diff departed) place? .unstated).places.get? h =
      if h ∈ departed then some .outside else if h ∈ changed then place? h else none := by
  rw [MembershipChange.get?_ofReadings]
  by_cases hd : h ∈ departed
  · simp [hd]
  · simp [hd]

/-- The contacts that ask for the user's presence. -/
def asking (server : ContactServer σ) : List Handle :=
  (changed.diff departed).toList.filter fun h => (server.states s.server h).publish = .ask

theorem mem_asking {h : Handle} :
    h ∈ s.asking changed departed server ↔
      (h ∈ changed ∧ h ∉ departed) ∧ (server.states s.server h).publish = .ask := by
  rw [asking, List.mem_filter, ← SortedSet.mem_def, SortedSet.mem_diff, decide_eq_true_iff]

/-- The contacts as four steps: the subscribe list, the publish list as far as one batch goes, those
who ask, and the stored list. -/
theorem applyContacts_eq :
    s.applyContacts server changed departed =
      (((s.change (.list .subscribe)
          (.ofReadings departed (changed.diff departed)
            (fun h => some (server.states s.server h).subscribe.subscribePlace) .unstated)).change
        (.list .publish)
          (.ofReadings departed (changed.diff departed)
            (fun h => (server.states s.server h).publish.publishPlace?) .unstated)).sendAll
        (fun _ => .list .publish) (fun h => .ofList [h]) .localPending
          (fun h => ⟨none, .none, (server.states s.server h).publishRequest⟩)
          (s.asking changed departed server)).change
        (.list .stored)
          (.ofReadings departed (changed.diff departed) (fun _ => some .member) .unstated) :=
  rfl

theorem moves_applyContacts : s.Moves (s.applyContacts server changed departed) := by
  rw [applyContacts_eq]
  exact ((s.moves_change _ _).trans (moves_change _ _ _)).trans
    ((moves_sendAll _ _ _ _ _ _).trans (moves_change _ _ _))

/-- Reading contacts puts nobody on the list of blocked contacts or into groups. -/
theorem standing?_applyContacts_ne {t : ContactTarget} (hsubscribe : t ≠ .list .subscribe)
    (hpublish : t ≠ .list .publish) (hstored : t ≠ .list .stored) (h : Handle) :
    (s.applyContacts server changed departed).list.standing? t h = s.list.standing? t h := by
  rw [applyContacts_eq, standing?_change_ne hstored,
    standing?_sendAll_ne _ _ _ _ fun _ _ => hpublish, standing?_change_ne hpublish,
    standing?_change_ne hsubscribe]

/-- What is read of the contacts who ask makes them wait for the user. -/
theorem standing?_sendAsking (hlist : s₁.list.HasChannel (.list .publish)) (h : Handle) :
    (s₁.sendAll (fun _ => .list .publish) (fun h => .ofList [h]) .localPending
        (fun h => ⟨none, .none, (server.states s.server h).publishRequest⟩)
        (s.asking changed departed server)).list.standing? (.list .publish) h =
      if h ∈ s.asking changed departed server then
        some (.localPending ⟨none, .none, (server.states s.server h).publishRequest⟩)
      else s₁.list.standing? (.list .publish) h := by
  have hasks : ∀ a ∈ s.asking changed departed server,
      ContactTarget.list .publish = .list .publish → h ∈ SortedSet.ofList [a] →
        Standing.ofPlace? .localPending ⟨none, .none, (server.states s.server a).publishRequest⟩ =
          some (.localPending ⟨none, .none, (server.states s.server h).publishRequest⟩) := by
    intro a _ _ ha
    rw [SortedSet.mem_ofList, List.mem_singleton] at ha
    rw [ha]
    rfl
  rw [standing?_sendAll _ _ _ _ hlist hasks]
  simp only [SortedSet.mem_ofList, List.mem_singleton, true_and, exists_eq_right']

/-- Those who departed are on none of the three lists, and those who were read are where their
states put them. -/
theorem standing?_applyContacts {k : ListKind} (hk : k ≠ .deny)
    (hlist : s.list.HasChannel (.list k)) (h : Handle) :
    (s.applyContacts server changed departed).list.standing? (.list k) h =
      if h ∈ departed then none
      else if h ∈ changed then (server.states s.server h).standing? k
      else s.list.standing? (.list k) h := by
  rw [applyContacts_eq]
  cases k with
  | subscribe =>
    rw [standing?_change_ne (by decide), standing?_sendAll_ne _ _ _ _ fun _ _ => by decide,
      standing?_change_ne (by decide), standing?_change_self hlist, get?_ofContacts]
    by_cases hd : h ∈ departed
    · simp [hd, Standing.ofPlace?]
    · by_cases hh : h ∈ changed
      · simp only [hd, hh, if_true, if_false, PresenceStates.standing?]
        cases (server.states s.server h).subscribe <;> rfl
      · simp [hd, hh]
  | publish =>
    -- Whoever asks is named by no common batch, but by one of their own.
    rw [standing?_change_ne (by decide), standing?_sendAsking, standing?_change_self,
      get?_ofContacts, standing?_change_ne (by decide)]
    · simp only [mem_asking]
      by_cases hd : h ∈ departed
      · simp [hd, Standing.ofPlace?]
      · by_cases hh : h ∈ changed
        · simp only [hd, hh, not_false_eq_true, true_and, if_true, if_false,
            PresenceStates.standing?]
          cases (server.states s.server h).publish <;> rfl
        · simp [hd, hh]
    · exact (hasChannel_change _ _ _ _).mpr hlist
    · exact (hasChannel_change _ _ _ _).mpr ((hasChannel_change _ _ _ _).mpr hlist)
  | stored =>
    rw [standing?_change_self, get?_ofContacts, standing?_sendAll_ne _ _ _ _ fun _ _ => by decide,
      standing?_change_ne (by decide), standing?_change_ne (by decide)]
    · by_cases hd : h ∈ departed
      · simp [hd, Standing.ofPlace?]
      · by_cases hh : h ∈ changed
        · simp [hd, hh, Standing.ofPlace?, PresenceStates.standing?]
        · simp [hd, hh]
    · exact ((moves_sendAll _ _ _ _ _ _).hasChannel _).mpr
        ((hasChannel_change _ _ _ _).mpr ((hasChannel_change _ _ _ _).mpr hlist))
  | deny => exact absurd rfl hk

end ApplyContacts

theorem moves_loadBlocked (s : ContactScene σ) : s.Moves (s.loadBlocked server) := by
  unfold loadBlocked
  split
  · exact s.moves_change _ _
  · exact .refl s

theorem standing?_loadBlocked_ne {t : ContactTarget} (ht : t ≠ .list .deny) (h : Handle) :
    (s.loadBlocked server).list.standing? t h = s.list.standing? t h := by
  unfold loadBlocked
  split
  · exact standing?_change_ne ht _ h
  · rfl

theorem standing?_deny (hcan : s.list.capabilities.canBlock = true)
    (hnobody : ∀ h, s.list.standing? (.list .deny) h = none)
    (hlist : s.list.HasChannel (.list .deny)) (h : Handle) :
    (s.loadBlocked server).list.standing? (.list .deny) h =
      server.standing? s.server (.list .deny) h := by
  rw [loadBlocked, if_pos hcan, standing?_change_self hlist, MembershipChange.get?_ofSet, hnobody]
  simp only [ContactServer.standing?]
  by_cases hh : h ∈ server.blocked s.server
  · rw [if_pos hh, if_pos hh]
    rfl
  · rw [if_neg hh, if_neg hh]
    rfl

/-! ## The groups -/

section Gathering

variable {α β : Type} [Ord α] [DecidableEq α] [Std.TransOrd α] [Std.LawfulEqOrd α]
  [Ord β] [Std.TransOrd β] [Std.LawfulEqOrd β]

/-- Collecting pairs by their first components gives each of these the set of its partners. -/
theorem mem_gathered (l : List (α × β)) (m : SortedMap α (SortedSet β)) (a : α) (b : β) :
    (∃ set, (l.foldl (fun m e => m.insert e.1 (((m.get? e.1).getD .empty).insert e.2)) m).get? a =
        some set ∧ b ∈ set) ↔
      (∃ set, m.get? a = some set ∧ b ∈ set) ∨ (a, b) ∈ l := by
  induction l generalizing m with
  | nil => simp
  | cons e l ih =>
    obtain ⟨a', b'⟩ := e
    rw [List.foldl_cons, ih, SortedMap.get?_insert]
    by_cases ha : a = a'
    · subst ha
      cases hget : m.get? a with
      | none => simp
      | some set => simp [or_assoc, or_left_comm]
    · simp [ha]

omit [Std.LawfulEqOrd β] in
/-- Nothing is collected under a first component that no pair has. -/
theorem contains_gathered (l : List (α × β)) (m : SortedMap α (SortedSet β)) (a : α) :
    (l.foldl (fun m e => m.insert e.1 (((m.get? e.1).getD .empty).insert e.2)) m).contains a =
        true ↔
      m.contains a = true ∨ ∃ b, (a, b) ∈ l := by
  induction l generalizing m with
  | nil => simp
  | cons e l ih =>
    obtain ⟨a', b'⟩ := e
    rw [List.foldl_cons, ih, SortedMap.contains, SortedMap.get?_insert]
    by_cases ha : a = a'
    · simp [ha]
    · simp [ha, SortedMap.contains]

end Gathering

/-- Who is with whom: the contacts, each with the groups that it is in. -/
theorem mem_pairs {data : σ} {contacts : SortedSet Handle} {name : String} {h : Handle} :
    (name, h) ∈ (contacts.toList.flatMap fun h =>
        ((server.groupsOf data h).filterMap server.normaliseGroup).map fun name => (name, h)) ↔
      h ∈ contacts ∧ name ∈ server.groupsNamed data h := by
  simp only [List.mem_flatMap, List.mem_map, Prod.mk.injEq, ← SortedSet.mem_def,
    ContactServer.groupsNamed]
  constructor
  · rintro ⟨h', hh', name', hname', rfl, rfl⟩
    exact ⟨hh', hname'⟩
  · rintro ⟨hh, hname⟩
    exact ⟨h, hh, name, hname, rfl, rfl⟩

theorem mem_groupMembers (data : σ) (contacts : SortedSet Handle) (name : String) (h : Handle) :
    (∃ set, (groupMembers server data contacts).get? name = some set ∧ h ∈ set) ↔
      h ∈ contacts ∧ name ∈ server.groupsNamed data h := by
  rw [groupMembers, mem_gathered, mem_pairs]
  simp

theorem mem_keys_groupMembers (data : σ) (contacts : SortedSet Handle) (name : String) :
    name ∈ (groupMembers server data contacts).keys ↔
      ∃ h ∈ contacts, name ∈ server.groupsNamed data h := by
  rw [SortedMap.mem_keys, groupMembers, contains_gathered]
  simp only [SortedMap.contains, SortedMap.get?_empty, Option.isSome_none, Bool.false_eq_true,
    false_or, mem_pairs]

theorem loadGroupMembers_eq (hgroups : s.list.capabilities.groups.isSupported = true)
    (contacts : SortedSet Handle) :
    s.loadGroupMembers server contacts =
      (s.tryOpenGroups (groupMembers server s.server contacts).keys).sendAll
        (fun e => .group e.1) Prod.snd .member (fun _ => .unstated)
          (groupMembers server s.server contacts).toList := by
  rw [loadGroupMembers, if_pos hgroups]
  rfl

theorem loadGroupMembers_of_unsupported (hgroups : s.list.capabilities.groups.isSupported = false)
    (contacts : SortedSet Handle) : s.loadGroupMembers server contacts = s := by
  rw [loadGroupMembers, hgroups]
  rfl

theorem local_loadGroupMembers (s : ContactScene σ) (contacts : SortedSet Handle) :
    s.Local (s.loadGroupMembers server contacts) := by
  cases hgroups : s.list.capabilities.groups.isSupported with
  | false =>
    rw [loadGroupMembers_of_unsupported hgroups]
    exact .refl s
  | true =>
    rw [loadGroupMembers_eq hgroups]
    exact (s.opens_tryOpenGroups _).quiet.trans (moves_sendAll _ _ _ _ _ _).quiet

theorem unannounced_loadGroupMembers (contacts : SortedSet Handle) (h : s.list.Unannounced) :
    (s.loadGroupMembers server contacts).list.Unannounced := by
  cases hgroups : s.list.capabilities.groups.isSupported with
  | false =>
    rw [loadGroupMembers_of_unsupported hgroups]
    exact h
  | true =>
    rw [loadGroupMembers_eq hgroups]
    exact (moves_sendAll _ _ _ _ _ _).unannounced ((s.opens_tryOpenGroups _).unannounced h)

/-- Groups that only contacts mention get channels, too. -/
theorem hasChannel_loadGroupMembers {contacts : SortedSet Handle}
    (h : s.list.capabilities.groups.isSupported = true → ∀ contact ∈ contacts,
      ∀ name ∈ server.groupsNamed s.server contact, s.tables.Gives .group name)
    (t : ContactTarget) :
    (s.loadGroupMembers server contacts).list.HasChannel t ↔
      (s.list.capabilities.groups.isSupported = true ∧
        ∃ name, (∃ h ∈ contacts, name ∈ server.groupsNamed s.server h) ∧ t = .group name) ∨
        s.list.HasChannel t := by
  cases hgroups : s.list.capabilities.groups.isSupported with
  | false =>
    rw [loadGroupMembers_of_unsupported hgroups]
    simp
  | true =>
    rw [loadGroupMembers_eq hgroups, (moves_sendAll _ _ _ _ _ _).hasChannel,
      hasChannel_tryOpenGroups]
    · simp only [mem_keys_groupMembers, true_and]
    · intro name hname
      obtain ⟨contact, hcontact, hname⟩ := (mem_keys_groupMembers _ _ _).mp hname
      exact h hgroups contact hcontact name hname

theorem standing?_loadGroupMembers_list (k : ListKind) (contacts : SortedSet Handle) (h : Handle) :
    (s.loadGroupMembers server contacts).list.standing? (.list k) h =
      s.list.standing? (.list k) h := by
  cases hgroups : s.list.capabilities.groups.isSupported with
  | false => rw [loadGroupMembers_of_unsupported hgroups]
  | true =>
    rw [loadGroupMembers_eq hgroups, standing?_sendAll_ne]
    · exact (s.opens_tryOpenGroups _).standing _ h
    · intro _ _ heq
      cases heq

theorem standing?_group (hgroups : s.list.capabilities.groups.isSupported = true) {name : String}
    (hnobody : ∀ h, s.list.standing? (.group name) h = none)
    (hthere : (s.loadGroupMembers server (server.contacts s.server)).list.HasChannel (.group name))
    (h : Handle) :
    (s.loadGroupMembers server (server.contacts s.server)).list.standing? (.group name) h =
      server.standing? s.server (.group name) h := by
  have hnamed : (∃ e ∈ (groupMembers server s.server (server.contacts s.server)).toList,
      ContactTarget.group name = .group e.1 ∧ h ∈ e.2) ↔
        h ∈ server.contacts s.server ∧ name ∈ server.groupsNamed s.server h := by
    rw [← mem_groupMembers]
    constructor
    · rintro ⟨e, he, heq, hh⟩
      cases heq
      exact ⟨e.2, SortedMap.get?_eq_some_iff.mpr he, hh⟩
    · rintro ⟨set, hset, hh⟩
      exact ⟨(name, set), SortedMap.get?_eq_some_iff.mp hset, rfl, hh⟩
  have hmember : ∀ e ∈ (groupMembers server s.server (server.contacts s.server)).toList,
      ContactTarget.group name = .group e.1 → h ∈ e.2 →
        Standing.ofPlace? .member .unstated = some .member := fun _ _ _ _ => rfl
  rw [loadGroupMembers_eq hgroups] at hthere ⊢
  rw [standing?_sendAll _ _ _ _ (((moves_sendAll _ _ _ _ _ _).hasChannel _).mp hthere) hmember,
    (s.opens_tryOpenGroups _).standing, hnobody]
  simp only [ContactServer.standing?, hnamed]

/-! ## All together -/

theorem local_fillChannels (s : ContactScene σ) (contacts : SortedSet Handle) :
    s.Local (s.fillChannels server contacts) :=
  ((s.moves_applyContacts contacts .empty).quiet.trans (moves_loadBlocked _).quiet).trans
    (local_loadGroupMembers _ contacts)

theorem unannounced_fillChannels (contacts : SortedSet Handle) (h : s.list.Unannounced) :
    (s.fillChannels server contacts).list.Unannounced :=
  unannounced_loadGroupMembers contacts
    ((moves_loadBlocked _).unannounced ((s.moves_applyContacts contacts .empty).unannounced h))

/-- Everybody goes on the lists where the server has them. -/
theorem standing?_fillChannels_list (hnobody : ∀ k h, s.list.standing? (.list k) h = none)
    (hcan : s.list.HasChannel (.list .deny) → s.list.capabilities.canBlock = true) {k : ListKind}
    (hlist : s.list.HasChannel (.list k)) (h : Handle) :
    (s.fillChannels server (server.contacts s.server)).list.standing? (.list k) h =
      server.standing? s.server (.list k) h := by
  let s₁ := s.applyContacts server (server.contacts s.server) .empty
  have hfirst : s.Moves s₁ := s.moves_applyContacts _ _
  refine (standing?_loadGroupMembers_list k (server.contacts s.server) h).trans ?_
  by_cases hk : k = .deny
  · subst hk
    have hcan₁ : s₁.list.capabilities.canBlock = true :=
      (congrArg Capabilities.canBlock
        (congrArg Prod.fst (s.settings_applyContacts server _ _))).trans (hcan hlist)
    have hnobody₁ : ∀ h, s₁.list.standing? (.list .deny) h = none := fun h =>
      (standing?_applyContacts_ne _ _ _ (by decide) (by decide) (by decide) h).trans (hnobody _ h)
    exact (standing?_deny hcan₁ hnobody₁ ((hfirst.hasChannel _).mpr hlist) h).trans
      (by rw [hfirst.quiet.server])
  · have hne : ContactTarget.list k ≠ .list .deny := fun heq => hk (ContactTarget.list.inj heq)
    rw [standing?_loadBlocked_ne hne, standing?_applyContacts _ _ _ hk hlist, hnobody,
      if_neg (SortedSet.not_mem_empty h)]
    cases k with
    | deny => exact absurd rfl hk
    | _ => rfl

section FillChannels

variable (hgives : s.list.capabilities.groups.isSupported = true →
  ∀ contact ∈ server.contacts s.server, ∀ name ∈ server.groupsNamed s.server contact,
    s.tables.Gives .group name)

include hgives

theorem hasChannel_fillChannels (t : ContactTarget) :
    (s.fillChannels server (server.contacts s.server)).list.HasChannel t ↔
      (s.list.capabilities.groups.isSupported = true ∧
        ∃ name, (∃ h ∈ server.contacts s.server, name ∈ server.groupsNamed s.server h) ∧
          t = .group name) ∨ s.list.HasChannel t := by
  let s₁ := s.applyContacts server (server.contacts s.server) .empty
  let s₂ := s₁.loadBlocked server
  have hmoves : s.Moves s₂ := (s.moves_applyContacts _ _).trans s₁.moves_loadBlocked
  have hcapabilities : s₂.list.capabilities = s.list.capabilities :=
    congrArg Prod.fst ((s₁.settings_loadBlocked server).trans (s.settings_applyContacts server _ _))
  have hgives₂ : s₂.list.capabilities.groups.isSupported = true →
      ∀ contact ∈ server.contacts s.server, ∀ name ∈ server.groupsNamed s₂.server contact,
        s₂.tables.Gives .group name := by
    rw [hcapabilities, hmoves.quiet.server]
    exact fun hgroups contact hcontact name hname =>
      hmoves.quiet.tables.gives (hgives hgroups contact hcontact name hname)
  have hload := hasChannel_loadGroupMembers hgives₂ t
  rw [hcapabilities, hmoves.quiet.server, hmoves.hasChannel] at hload
  exact hload

/-- Everybody goes where the server has them. -/
theorem standing?_fillChannels (hnobody : ∀ t h, s.list.standing? t h = none)
    (hsupported : ∀ t, s.list.HasChannel t → t.isSupported s.list.capabilities = true)
    {t : ContactTarget}
    (ht : (s.fillChannels server (server.contacts s.server)).list.HasChannel t) (h : Handle) :
    (s.fillChannels server (server.contacts s.server)).list.standing? t h =
      server.standing? s.server t h := by
  have horigin := (hasChannel_fillChannels hgives t).mp ht
  cases t with
  | list k =>
    rcases horigin with ⟨-, name, -, hne⟩ | hlist
    · cases hne
    · exact standing?_fillChannels_list (fun k h => hnobody _ h) (hsupported _) hlist h
  | group name =>
    let s₁ := s.applyContacts server (server.contacts s.server) .empty
    let s₂ := s₁.loadBlocked server
    have hmoves : s.Moves s₂ := (s.moves_applyContacts _ _).trans s₁.moves_loadBlocked
    have hfill : s.fillChannels server (server.contacts s.server) =
        s₂.loadGroupMembers server (server.contacts s₂.server) := by
      rw [hmoves.quiet.server]
      rfl
    have hgroups : s.list.capabilities.groups.isSupported = true := by
      rcases horigin with ⟨hgroups, -⟩ | hold
      · exact hgroups
      · exact hsupported _ hold
    have hgroups₂ : s₂.list.capabilities.groups.isSupported = true :=
      (congrArg (·.1.groups.isSupported) ((s₁.settings_loadBlocked server).trans
        (s.settings_applyContacts server _ _))).trans hgroups
    have hnobody₂ : ∀ h, s₂.list.standing? (.group name) h = none := by
      intro h
      rw [standing?_loadBlocked_ne (by simp), standing?_applyContacts_ne _ _ _ (by simp)
        (by simp) (by simp), hnobody]
    rw [hfill] at ht ⊢
    rw [standing?_group hgroups₂ hnobody₂ ht, hmoves.quiet.server]

end FillChannels

end ContactScene

end Telepathy

import Telepathy.Proofs.ContactList.Filling

set_option autoImplicit false

/-!
# The initial roster

When the roster arrives, the contact list takes over what the server knows: the lists the protocol
has, the groups the server reports and those its contacts are in, and the early groups that the
server agrees to create. Since nobody was on any channel before, everybody is afterwards exactly
where the server has them, and clients are told of all channels at once.
-/

namespace Telepathy

namespace ContactChannel

/-- The channel has these members, and nobody waits to become one. -/
def ConsistsOf (c : ContactChannel) (P : Handle → Prop) : Prop :=
  ∀ h, (h ∈ c.membership.members ↔ P h) ∧ h ∉ c.membership.localPending ∧
    h ∉ c.membership.remotePending

theorem consistsOf_of_standings {c : ContactChannel} {P : Handle → Prop} [DecidablePred P]
    (h : ∀ contact, c.membership.standings.get? contact =
      if P contact then some .member else none) :
    c.ConsistsOf P := by
  intro contact
  rw [Membership.mem_members, Membership.mem_localPending, Membership.mem_remotePending, h]
  by_cases hP : P contact <;> simp [hP]

end ContactChannel

namespace ContactScene

variable {σ : Type} {server : ContactServer σ} {s s₁ : ContactScene σ}

/-! ## Announcing -/

theorem announcePending_eq (hreceived : s.list.roster = .received)
    (hunannounced : s.list.Unannounced) {t : ContactTarget} (ht : s.list.HasChannel t) :
    s.announcePending =
      { s with
        list :=
          { s.list with
            channels := s.list.channels.mapValues fun _ c =>
              if c.announced then c else c.announce }
        effects := s.effects ++
          [.report (.newChannels
            (s.list.channels.toList.map fun e => (e.2.details e.1, e.2.queued)))] } := by
  have hall : (s.list.channels.toList.filter fun e => !e.2.announced) = s.list.channels.toList := by
    refine List.filter_eq_self.mpr fun e he => ?_
    simp [hunannounced e.1 e.2 (SortedMap.get?_eq_some_iff.mpr he)]
  have hsome : s.list.channels.toList ≠ [] := by
    obtain ⟨c, hc⟩ := ContactList.hasChannel_iff.mp ht
    exact List.ne_nil_of_mem (SortedMap.get?_eq_some_iff.mp hc)
  unfold announcePending
  simp only [hall]
  rw [if_neg]
  simp [hreceived, hsome]

/-- The announcement of channels that no client knew tells of all channels, and leaves the contacts
where they are. -/
theorem announcePending_spec (hreceived : s.list.roster = .received)
    (hunannounced : s.list.Unannounced) {t : ContactTarget} (ht : s.list.HasChannel t) :
    (∀ t, s.announcePending.list.channels.get? t =
      (s.list.channels.get? t).map ContactChannel.announce) ∧
    s.announcePending.calls = s.calls ∧
    s.announcePending.announcements = s.announcements ++
      [s.announcePending.list.channels.toList.map fun e => e.2.details e.1] ∧
    ∃ batch, s.announcePending.effects.getLast? = some (.report (.newChannels batch)) := by
  rw [announcePending_eq hreceived hunannounced ht]
  refine ⟨fun t => ?_, ?_, ?_, ⟨_, List.getLast?_concat⟩⟩
  · simp only [SortedMap.get?_mapValues]
    cases hget : s.list.channels.get? t with
    | none => rfl
    | some c => simp [hunannounced t c hget]
  · simp [calls, Effect.call?]
  · simp only [announcements, List.filterMap_append, List.filterMap_cons, Effect.announced?,
      List.filterMap_nil, List.map_map, SortedMap.mapValues]
    congr 2
    refine List.map_congr_left fun e he => ?_
    simp [hunannounced e.1 e.2 (SortedMap.get?_eq_some_iff.mpr he), ContactChannel.details,
      ContactChannel.announce]

/-! ## What the roster amounts to -/

/-- The contact list shows the roster that the server has in `data`. -/
structure ShowsRoster (server : ContactServer σ) (s : ContactScene σ) (data : σ)
    (s' : ContactScene σ) : Prop where
  received : s'.list.roster = .received
  /-- The server is called at most once, to create the early groups. -/
  calls : s'.calls = s.calls ++ s.loadCalls server
  lists : ∀ k, s'.list.HasChannel (.list k) ↔ k.isSupported s.list.capabilities = true
  subscribe : ∃ c, s'.list.list? .subscribe = some c ∧ ∀ h,
    (h ∈ c.membership.members ↔
      h ∈ server.contacts data ∧ (server.states data h).subscribe = .yes) ∧
    (h ∈ c.membership.remotePending ↔
      h ∈ server.contacts data ∧ (server.states data h).subscribe = .ask) ∧
    h ∉ c.membership.localPending
  /-- Whoever asks is local-pending, with the message that came along. -/
  publish : ∃ c, s'.list.list? .publish = some c ∧ ∀ h,
    (h ∈ c.membership.members ↔
      h ∈ server.contacts data ∧ (server.states data h).publish = .yes) ∧
    (h ∈ c.membership.localPending ↔
      h ∈ server.contacts data ∧ (server.states data h).publish = .ask) ∧
    (∀ provenance, c.membership.standings.get? h = some (.localPending provenance) →
      provenance = ⟨none, .none, (server.states data h).publishRequest⟩) ∧
    h ∉ c.membership.remotePending
  stored : ∀ c, s'.list.list? .stored = some c → c.ConsistsOf (· ∈ server.contacts data)
  deny : ∀ c, s'.list.list? .deny = some c → c.ConsistsOf (· ∈ server.blocked data)
  groups : ∀ name, name ∈ s'.list.groupNames ↔
    s.list.capabilities.groups.isSupported = true ∧
      (name ∈ s.knownGroups server ∨
        (∃ h ∈ server.contacts data, name ∈ server.groupsNamed data h) ∨
          name ∈ s.earlyGroups server ∧ s.GrantsGroups server)
  members : ∀ name c, s'.list.group? name = some c →
    c.ConsistsOf fun h => h ∈ server.contacts data ∧ name ∈ server.groupsNamed data h
  /-- Clients are told of all channels at once, when everybody is there. -/
  announcement : s'.announcements =
    s.announcements ++ [s'.list.channels.toList.map fun e => e.2.details e.1]
  last : ∃ batch, s'.effects.getLast? = some (.report (.newChannels batch))
  announced : ∀ t c, s'.list.channels.get? t = some c → c.announced = true ∧ c.queued = []

section Lists

variable {c : ContactChannel} {data : σ}

theorem subscribe_of_standings
    (hc : ∀ h, c.membership.standings.get? h = server.standing? data (.list .subscribe) h)
    (h : Handle) :
    (h ∈ c.membership.members ↔
      h ∈ server.contacts data ∧ (server.states data h).subscribe = .yes) ∧
    (h ∈ c.membership.remotePending ↔
      h ∈ server.contacts data ∧ (server.states data h).subscribe = .ask) ∧
    h ∉ c.membership.localPending := by
  rw [Membership.mem_members, Membership.mem_remotePending, Membership.mem_localPending, hc,
    ContactServer.standing?]
  by_cases hh : h ∈ server.contacts data
  · cases (server.states data h).subscribe <;> simp [hh]
  · simp [hh]

theorem publish_of_standings
    (hc : ∀ h, c.membership.standings.get? h = server.standing? data (.list .publish) h)
    (h : Handle) :
    (h ∈ c.membership.members ↔
      h ∈ server.contacts data ∧ (server.states data h).publish = .yes) ∧
    (h ∈ c.membership.localPending ↔
      h ∈ server.contacts data ∧ (server.states data h).publish = .ask) ∧
    (∀ provenance, c.membership.standings.get? h = some (.localPending provenance) →
      provenance = ⟨none, .none, (server.states data h).publishRequest⟩) ∧
    h ∉ c.membership.remotePending := by
  rw [Membership.mem_members, Membership.mem_localPending, Membership.mem_remotePending, hc,
    ContactServer.standing?]
  by_cases hh : h ∈ server.contacts data
  · cases (server.states data h).publish <;> simp [hh, eq_comm]
  · simp [hh]

end Lists

/-- All channels there are, with everybody where the server has them. -/
structure Reflects (server : ContactServer σ) (s : ContactScene σ) (data : σ)
    (s' : ContactScene σ) : Prop where
  lists : ∀ k, s'.list.HasChannel (.list k) ↔ k.isSupported s.list.capabilities = true
  groups : ∀ name, s'.list.HasChannel (.group name) ↔
    s.list.capabilities.groups.isSupported = true ∧
      (name ∈ s.knownGroups server ∨
        (∃ h ∈ server.contacts data, name ∈ server.groupsNamed data h) ∨
          name ∈ s.earlyGroups server ∧ s.GrantsGroups server)
  standings : ∀ t c, s'.list.channels.get? t = some c →
    ∀ h, c.membership.standings.get? h = server.standing? data t h

namespace Reflects

variable {data : σ} {s' : ContactScene σ}

theorem list? (h : s.Reflects server data s') {k : ListKind}
    (hk : k.isSupported s.list.capabilities = true) :
    ∃ c, s'.list.list? k = some c ∧
      ∀ contact, c.membership.standings.get? contact = server.standing? data (.list k) contact := by
  obtain ⟨c, hc⟩ := ContactList.hasChannel_iff.mp ((h.lists k).mpr hk)
  exact ⟨c, hc, h.standings _ c hc⟩

/-- Being announced makes no difference to who is where. -/
theorem announce (h : s.Reflects server data s₁)
    (hget : ∀ t, s'.list.channels.get? t =
      (s₁.list.channels.get? t).map ContactChannel.announce) : s.Reflects server data s' := by
  have hhas : ∀ t, s'.list.HasChannel t ↔ s₁.list.HasChannel t := by
    intro t
    rw [ContactList.HasChannel, ContactList.HasChannel, SortedMap.contains, SortedMap.contains,
      hget, Option.isSome_map]
  refine ⟨fun k => (hhas _).trans (h.lists k), fun name => (hhas _).trans (h.groups name), ?_⟩
  intro t c hc
  rw [hget, Option.map_eq_some_iff] at hc
  obtain ⟨c', hc', rfl⟩ := hc
  exact h.standings t c' hc'

end Reflects

theorem reflects_fillChannels (hpending : s.list.roster = .pending) (hunfilled : s.list.Unfilled)
    (hprepares : s.Prepares server s₁)
    (hmentioned : s.list.capabilities.groups.isSupported = true →
      ∀ h ∈ server.contacts (s.dataRead server),
        ∀ name ∈ server.groupsNamed (s.dataRead server) h, s.tables.Gives .group name) :
    s.Reflects server (s.dataRead server) (s₁.fillChannels server (server.contacts s₁.server)) := by
  have hcapabilities : s₁.list.capabilities = s.list.capabilities :=
    congrArg Prod.fst hprepares.settings
  have hgives : s₁.list.capabilities.groups.isSupported = true →
      ∀ h ∈ server.contacts s₁.server, ∀ name ∈ server.groupsNamed s₁.server h,
        s₁.tables.Gives .group name := by
    rw [hcapabilities, hprepares.data]
    exact fun hgroups h hh name hname =>
      hprepares.tables.gives (hmentioned hgroups h hh name hname)
  have hfill := hasChannel_fillChannels hgives
  have hknown : ∀ name, name ∈ s.knownGroups server →
      s.list.capabilities.groups.isSupported = true := by
    intro name hname
    rw [knownGroups] at hname
    split at hname
    · assumption
    · cases hname
  have hearly : ∀ name, name ∈ s.earlyGroups server →
      s.list.capabilities.groups.isSupported = true :=
    fun name hname => hunfilled.isSupported hpending (mem_earlyGroups.mp hname).1
  have hsupported : ∀ t, s₁.list.HasChannel t → t.isSupported s₁.list.capabilities = true := by
    intro t ht
    rw [hcapabilities]
    cases t with
    | list k => exact (hprepares.lists k).mp ht
    | group name =>
      rcases (hprepares.groups name).mp ht with h | h
      · exact hknown name h
      · exact hearly name h.1
  refine ⟨fun k => ?_, fun name => ?_, fun t c hc h => ?_⟩
  · rw [hfill, hprepares.lists]
    simp
  · rw [hfill, hprepares.groups, hcapabilities, hprepares.data]
    simp only [ContactTarget.group.injEq, exists_eq_right']
    constructor
    · rintro (⟨hgroups, hnamed⟩ | h | h)
      · exact ⟨hgroups, .inr (.inl hnamed)⟩
      · exact ⟨hknown name h, .inl h⟩
      · exact ⟨hearly name h.1, .inr (.inr h)⟩
    · rintro ⟨hgroups, h | hnamed | h⟩
      · exact .inr (.inl h)
      · exact .inl ⟨hgroups, hnamed⟩
      · exact .inr (.inr h)
  · have hstanding := standing?_fillChannels hgives hprepares.nobody hsupported
      (ContactList.hasChannel_iff.mpr ⟨c, hc⟩) h
    rw [ContactList.standing?, hc, Option.bind_some, hprepares.data] at hstanding
    exact hstanding

/-- There are handles for all lists and groups that come with the roster. -/
structure CanName (server : ContactServer σ) (s : ContactScene σ) : Prop where
  lists : ∀ k ∈ ListKind.all, k.isSupported s.list.capabilities = true →
    s.tables.Gives .list k.name
  known : ∀ name ∈ s.knownGroups server, s.tables.Gives .group name
  mentioned : s.list.capabilities.groups.isSupported = true →
    ∀ h ∈ server.contacts (s.dataRead server),
      ∀ name ∈ server.groupsNamed (s.dataRead server) h, s.tables.Gives .group name

/-- The arrival of the roster makes the contact list show it. -/
theorem rosterReceived_showsRoster (hpending : s.list.roster = .pending)
    (hunfilled : s.list.Unfilled) (hnames : s.CanName server) :
    s.ShowsRoster server (s.dataRead server) (s.rosterReceived server) := by
  let s₁ := (openLists { s with list := { s.list with roster := .received } }).loadGroups server
  let s₂ := s₁.fillChannels server (server.contacts s₁.server)
  have hprepares : s.Prepares server s₁ :=
    prepares_loadGroups hpending hunfilled hnames.lists hnames.known
  have hfilled : s.Reflects server (s.dataRead server) s₂ :=
    reflects_fillChannels hpending hunfilled hprepares hnames.mentioned
  have hquiet : s₁.Local s₂ := s₁.local_fillChannels _
  have hreceived : s₂.list.roster = .received :=
    congrArg Prod.snd ((s₁.settings_fillChannels server _).trans hprepares.settings)
  obtain ⟨hget, hcalls, hannouncement, hlast⟩ :=
    announcePending_spec hreceived (unannounced_fillChannels _ hprepares.unannounced)
      ((hfilled.lists .subscribe).mpr rfl)
  have hreflects : s.Reflects server (s.dataRead server) s₂.announcePending :=
    hfilled.announce hget
  have hload : s.rosterReceived server = s₂.announcePending := by
    rw [rosterReceived, if_pos hpending]
    rfl
  rw [hload]
  refine
    { received := (congrArg Prod.snd s₂.settings_announcePending).trans hreceived
      calls := hcalls.trans (hquiet.calls.trans hprepares.calls)
      lists := hreflects.lists
      subscribe := ?_
      publish := ?_
      stored := fun c hc => ContactChannel.consistsOf_of_standings (hreflects.standings _ c hc)
      deny := fun c hc => ContactChannel.consistsOf_of_standings (hreflects.standings _ c hc)
      groups := fun name => ContactList.mem_groupNames.trans (hreflects.groups name)
      members := fun name c hc =>
        ContactChannel.consistsOf_of_standings (hreflects.standings _ c hc)
      announcement := ?_
      last := hlast
      announced := ?_ }
  · obtain ⟨c, hc, hstanding⟩ := hreflects.list? (k := .subscribe) rfl
    exact ⟨c, hc, subscribe_of_standings hstanding⟩
  · obtain ⟨c, hc, hstanding⟩ := hreflects.list? (k := .publish) rfl
    exact ⟨c, hc, publish_of_standings hstanding⟩
  · rw [hannouncement, hquiet.announcements, hprepares.announcements]
  · intro t c hc
    rw [hget, Option.map_eq_some_iff] at hc
    obtain ⟨c', -, rfl⟩ := hc
    exact ⟨rfl, rfl⟩

end ContactScene

end Telepathy

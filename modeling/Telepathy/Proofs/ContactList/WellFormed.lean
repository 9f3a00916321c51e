import Telepathy.Proofs.ContactList.Placement

set_option autoImplicit false

/-!
# Contact lists are well formed

Channels open when the roster arrives, when the server speaks of groups and when clients ask for
them; groups are moved and closed in the meantime, and no operation looks at all channels to see
whether they fit together. They do. Each stands for the target under which it is kept, and is the
one that is found at its path, since channels keep their places. There are channels only for what
the protocol has, since every way to open one asks for this first. Nobody is in any of them before
the roster is there, and none is left once the connection is gone.
-/

namespace Telepathy

/-! ## Which channels there are -/

/-- A contact list has channels only for what its protocol has, and none once the connection is
gone. -/
structure ContactList.Sparing (l : ContactList) : Prop where
  supported : ∀ t c, l.channels.get? t = some c → t.isSupported l.capabilities = true
  gone : l.roster = .disconnected → l.channels = .empty

/-- The connection is not gone, and there are channels only for what the protocol has. -/
def ContactList.Running (l : ContactList) : Prop := l.roster ≠ .disconnected ∧ l.Sparing

namespace ContactList

variable {l l' : ContactList}

theorem Sparing.of_no_channels (h : l.channels = .empty) : l.Sparing where
  supported t c hc := by
    rw [h, SortedMap.get?_empty] at hc
    cases hc
  gone _ := h

theorem Running.sameGroups (h : l.Running) (hsame : l.SameGroups l') : l'.Running := by
  obtain ⟨hcapabilities, hroster⟩ := Prod.mk.inj hsame.settings
  have hconnected : l'.roster ≠ .disconnected := hroster ▸ h.1
  refine ⟨hconnected, fun t c' hc' => ?_, fun hgone => absurd hgone hconnected⟩
  obtain ⟨c, hc, -⟩ := hsame.memberships t c' hc'
  exact hcapabilities ▸ h.2.supported t c hc

end ContactList

namespace ContactScene

variable {σ : Type} {server : ContactServer σ} {s s₁ : ContactScene σ}

/-- Wherever a step leaves a channel, the protocol has what it stands for. -/
theorem running_of_origin (h : s.list.Running) (hconnected : s₁.list.roster ≠ .disconnected)
    (hcapabilities : s₁.list.capabilities = s.list.capabilities)
    (horigin : ∀ {t c'}, s₁.list.channels.get? t = some c' → Origin server s t c') :
    s₁.list.Running := by
  refine ⟨hconnected, fun t c' hc' => ?_, fun hgone => absurd hgone hconnected⟩
  rw [hcapabilities]
  cases horigin hc' with
  | kept hc _ _ => exact h.2.supported t _ hc
  | changed hc _ => exact h.2.supported t _ hc
  | opened hopenable => exact hopenable.isSupported

theorem running_openChannel {t : ContactTarget} {requested : Bool} (h : s.list.Running)
    (ht : t.Openable server s.list) (hopen : s.openChannel t requested = .ok s₁) :
    s₁.list.Running := by
  obtain ⟨hcapabilities, hroster⟩ := Prod.mk.inj (settings_openChannel s hopen)
  exact running_of_origin h (hroster ▸ h.1) hcapabilities (origin_openChannel ht hopen)

/-- No step of an operation ends the connection. -/
theorem Task.running (htask : Task server s s₁) (h : s.list.Running) : s₁.list.Running := by
  refine running_of_origin h ?_ htask.capabilities htask.origin
  rcases htask.settings with hsettings | ⟨-, hconnected⟩
  · exact (Prod.mk.inj hsettings).2 ▸ h.1
  · exact hconnected

/-- A contact list that is gone stays as it is. -/
theorem sparing_perform (op : ContactOperation (SortedSet Handle)) (h : s.list.Sparing) :
    (s.perform server op).2.list.Sparing := by
  by_cases hgone : s.list.roster = .disconnected
  · rwa [perform_of_ended ⟨hgone, h.gone hgone⟩ op]
  · exact ((tasks_perform s op).keeps (I := fun s => s.list.Running) Task.running ⟨hgone, h⟩).2

theorem sparing_offer (r : ChannelRequest) (h : s.list.Sparing) :
    (s.offer server r).2.list.Sparing := by
  by_cases hgone : s.list.roster = .disconnected
  · rwa [offer_of_ended ⟨hgone, h.gone hgone⟩ r]
  · exact (keeps_offer (I := ContactList.Running) running_openChannel
      ContactList.Running.sameGroups r ⟨hgone, h⟩).2

theorem sparing_disconnect (s : ContactScene σ) : s.disconnect.list.Sparing :=
  .of_no_channels s.ended_disconnect.2

theorem sparing_openLists (server : ContactServer σ) (hpending : s.list.roster = .pending)
    (h : s.list.channels = .empty) : s.openLists.list.Sparing := by
  have hconnected : s.list.roster ≠ .disconnected := by
    rw [hpending]
    exact RosterState.noConfusion
  have htasks : Tasks server s s.openLists := tasks_openLists s
  exact (htasks.keeps (I := fun s => s.list.Running) Task.running
    ⟨hconnected, .of_no_channels h⟩).2

end ContactScene

/-! ## Who is in them -/

namespace Membership

variable {m : Membership}

/-- In a group where everybody is a full member nobody waits. -/
theorem Plain.nobody_waits (h : m.Plain) : m.localPending = .empty ∧ m.remotePending = .empty := by
  constructor
  · refine SortedSet.ext_mem fun x => iff_of_false (fun hx => ?_) (SortedSet.not_mem_empty x)
    obtain ⟨_, hstanding⟩ := mem_localPending.mp hx
    cases h x _ hstanding
  · refine SortedSet.ext_mem fun x => iff_of_false (fun hx => ?_) (SortedSet.not_mem_empty x)
    cases h x _ (mem_remotePending.mp hx)

end Membership

/-- Nobody is in a vacant channel, and nobody waits to get in. -/
theorem ContactChannel.Vacant.nobody {c : ContactChannel} (h : c.Vacant) :
    c.membership.members = .empty ∧ c.membership.localPending = .empty ∧
      c.membership.remotePending = .empty := by
  have hempty : c.membership.isEmpty = true := by
    rw [Membership.isEmpty, h.empty]
    rfl
  exact ⟨Membership.inPlace_of_isEmpty hempty _, Membership.inPlace_of_isEmpty hempty _,
    Membership.inPlace_of_isEmpty hempty _⟩

/-! ## All of it -/

/-- What a channel says of its target is true of this one: the path is that of the target, and the
handle names it. -/
structure ContactChannel.StandsFor (l : ContactList) (tables : HandleTables) (c : ContactChannel)
    (t : ContactTarget) : Prop where
  path : c.path = l.pathOf t c.handle
  named : tables.inspect ⟨t.entity, c.handle⟩ = some t.name

/-- The channels of a contact list fit together and to its server, while the handle tables are
these. -/
structure ContactList.WellFormed {σ : Type} (server : ContactServer σ) (tables : HandleTables)
    (l : ContactList) : Prop where
  /-- A channel stands for the target under which it is kept, and for no other. -/
  keyed : ∀ t c, l.channels.get? t = some c → ∀ t', c.StandsFor l tables t' ↔ t' = t
  supported : ∀ t c, l.channels.get? t = some c → t.isSupported server.capabilities = true
  valid : ∀ t c, l.channels.get? t = some c →
    tables.isValid ⟨t.entity, c.handle⟩ = true ∧
      tables.inspect ⟨t.entity, c.handle⟩ = some t.name
  apart : ∀ t c t' c', l.channels.get? t = some c → l.channels.get? t' = some c' →
    c.path = c'.path → t = t'
  found : ∀ path t c, l.at? path = some (t, c) ↔ l.channels.get? t = some c ∧ c.path = path
  /-- Nobody is invited to a group, or asks to be let in. -/
  settled : ∀ name c, l.group? name = some c →
    c.membership.localPending = .empty ∧ c.membership.remotePending = .empty
  /-- Without a roster, clients know of no channel, and nobody is in any. -/
  early : (l.roster = .pending ∨ ∃ e, l.roster = .failed e) →
    ∀ t c, l.channels.get? t = some c → c.announced = false ∧
      c.membership.members = .empty ∧ c.membership.localPending = .empty ∧
        c.membership.remotePending = .empty
  gone : l.roster = .disconnected → l.channels = .empty

namespace ContactScene

variable {σ : Type} {server : ContactServer σ} {s : ContactScene σ}

/-- A channel at its place whose handle is in use stands for its target alone. -/
theorem Arranged.standsFor_iff (h : s.Arranged none) {t t' : ContactTarget} {c : ContactChannel}
    (hc : s.list.channels.get? t = some c)
    (hnamed : s.tables.inspect ⟨t.entity, c.handle⟩ = some t.name) :
    c.StandsFor s.list s.tables t' ↔ t' = t := by
  have howns : s.Owns none t c.look := .inl (ContactList.look?_eq_some.mpr ⟨c, hc, rfl⟩)
  have hplaced : c.path = s.list.pathOf t c.handle := h.placed t c.look howns
  constructor
  · intro hstands
    -- The path tells the entity type, and within its table the handle tells the name.
    obtain ⟨hentity, -⟩ := ContactList.pathOf_injective (hstands.path.symm.trans hplaced)
    refine ContactTarget.ext hentity (Option.some.inj ?_)
    rw [← hstands.named, hentity, hnamed]
  · rintro rfl
    exact ⟨hplaced, hnamed⟩

/-- The parts of a well-formed contact list, put together. -/
theorem Arranged.wellFormed (harranged : s.Arranged none)
    (hvalid : ∀ t c, s.list.channels.get? t = some c →
      s.tables.isValid ⟨t.entity, c.handle⟩ = true)
    (hcapabilities : s.list.capabilities = server.capabilities) (htidy : s.list.Tidy server)
    (hunfilled : s.list.Unfilled) (hsparing : s.list.Sparing) :
    s.list.WellFormed server s.tables := by
  have howns : ∀ {t c}, s.list.channels.get? t = some c → s.Owns none t c.look := fun hc =>
    .inl (ContactList.look?_eq_some.mpr ⟨_, hc, rfl⟩)
  have hnamed : ∀ {t c}, s.list.channels.get? t = some c →
      s.tables.inspect ⟨t.entity, c.handle⟩ = some t.name := by
    intro t c hc
    obtain ⟨id, hid⟩ := HandleTables.isValid_iff.mp (hvalid t c hc)
    rw [hid, (harranged.means t c.look (howns hc)).of_inspect hid]
  constructor
  case keyed => exact fun t c hc t' => harranged.standsFor_iff hc (hnamed hc)
  case supported => exact fun t c hc => hcapabilities ▸ hsparing.supported t c hc
  case valid => exact fun t c hc => ⟨hvalid t c hc, hnamed hc⟩
  case apart =>
    exact fun t c t' c' hc hc' hpath =>
      harranged.apart t c.look t' c'.look (howns hc) (howns hc') hpath
  case found =>
    refine fun path t c => ⟨ContactList.of_at?, ?_⟩
    rintro ⟨hc, rfl⟩
    exact harranged.at?_path hc
  case settled => exact fun name c hc => (htidy.plain name c hc).nobody_waits
  case early =>
    intro hroster t c hc
    have habsent : s.list.roster ≠ .received := by
      rcases hroster with hpending | ⟨e, hfailed⟩
      · rw [hpending]
        decide
      · rw [hfailed]
        exact RosterState.noConfusion
    obtain ⟨-, hvacant⟩ := hunfilled habsent t c hc
    exact ⟨hvacant.unannounced, hvacant.nobody⟩
  case gone => exact hsparing.gone

end ContactScene

end Telepathy

import Telepathy.Proofs.ContactList.Standings

set_option autoImplicit false

/-!
# Groups requested early

A group may be requested before the roster arrives, and then it may turn out that the server does
not know it. All such groups are created with one call to the server, if clients may create groups;
if they may not, or if the call fails, all of them go away. What comes of it is the state in which
the contact list is filled: every list and every group is there, and nobody is in them yet.
-/

namespace Telepathy

namespace ContactList

variable {l : ContactList}

theorem Unfilled.vacant (h : l.Unfilled) (hpending : l.roster = .pending) {t : ContactTarget}
    {c : ContactChannel} (hc : l.channels.get? t = some c) :
    t.isSupported l.capabilities = true ∧ c.Vacant :=
  h (by rw [hpending]; decide) t c hc

theorem Unfilled.unannounced (h : l.Unfilled) (hpending : l.roster = .pending) : l.Unannounced :=
  fun _ _ hc => (h.vacant hpending hc).2.unannounced

theorem Unfilled.standing? (h : l.Unfilled) (hpending : l.roster = .pending) (t : ContactTarget)
    (contact : Handle) : l.standing? t contact = none := by
  rw [ContactList.standing?]
  cases hget : l.channels.get? t with
  | none => rfl
  | some c =>
    rw [Option.bind_some, (h.vacant hpending hget).2.empty]
    rfl

theorem Unfilled.isSupported (h : l.Unfilled) (hpending : l.roster = .pending) {t : ContactTarget}
    (ht : l.HasChannel t) : t.isSupported l.capabilities = true := by
  obtain ⟨c, hc⟩ := hasChannel_iff.mp ht
  exact (h.vacant hpending hc).1

end ContactList

namespace ContactScene

variable {σ : Type} {server : ContactServer σ} {s s₁ s₂ : ContactScene σ}

/-! ## Opening channels -/

/-- Channels came, and nothing else happened. -/
structure Opens (s s' : ContactScene σ) : Prop where
  quiet : s.Local s'
  settings : s'.list.settings = s.list.settings
  contact : s'.tables.contact = s.tables.contact
  standing : ∀ t h, s'.list.standing? t h = s.list.standing? t h
  unannounced : s.list.Unannounced → s'.list.Unannounced

namespace Opens

theorem refl (s : ContactScene σ) : s.Opens s := ⟨.refl s, rfl, rfl, fun _ _ => rfl, id⟩

theorem trans (h : s.Opens s₁) (h' : s₁.Opens s₂) : s.Opens s₂ :=
  ⟨h.quiet.trans h'.quiet, h'.settings.trans h.settings, h'.contact.trans h.contact,
    fun t contact => (h'.standing t contact).trans (h.standing t contact),
    fun hs => h'.unannounced (h.unannounced hs)⟩

end Opens

theorem unannounced_tryOpen (t : ContactTarget) (h : s.list.Unannounced) :
    (s.tryOpen t).list.Unannounced := by
  rcases s.tryOpen_cases t with hsame | ⟨r, c, -, hvacant, hnew, -⟩
  · rw [hsame]
    exact h
  · rw [hnew]
    intro t' c' hc'
    simp only [ContactList.put, SortedMap.get?_insert] at hc'
    split at hc'
    · cases hc'
      exact hvacant.unannounced
    · exact h t' c' hc'

theorem opens_tryOpen (s : ContactScene σ) (t : ContactTarget) : s.Opens (s.tryOpen t) :=
  ⟨s.local_tryOpen t, settings_tryOpen s t, s.contact_tryOpen t, s.standing?_tryOpen t,
    unannounced_tryOpen t⟩

theorem opens_openLists (s : ContactScene σ) : s.Opens s.openLists :=
  List.foldl_rel_of_step Opens.refl Opens.trans (fun s k => s.opens_tryOpen (.list k)) _ s

theorem opens_tryOpenGroups (s : ContactScene σ) (names : List String) :
    s.Opens (s.tryOpenGroups names) :=
  List.foldl_rel_of_step Opens.refl Opens.trans (fun s name => s.opens_tryOpen (.group name)) _ s

theorem hasChannel_openLists
    (h : ∀ k ∈ ListKind.all, k.isSupported s.list.capabilities = true → s.tables.Gives .list k.name)
    (t : ContactTarget) :
    s.openLists.list.HasChannel t ↔
      (∃ k, ListKind.isSupported k s.list.capabilities = true ∧ t = .list k) ∨
        s.list.HasChannel t := by
  have hall : ∀ k, k ∈ ListKind.all.filter (·.isSupported s.list.capabilities) ↔
      k.isSupported s.list.capabilities = true := by
    intro k
    rw [List.mem_filter, and_iff_right (by cases k <;> decide)]
  rw [openLists, hasChannel_tryOpenAll ContactTarget.list fun k hk =>
    h k (List.mem_filter.mp hk).1 (List.mem_filter.mp hk).2]
  simp only [hall]

theorem hasChannel_tryOpenGroups {names : List String}
    (h : ∀ name ∈ names, s.tables.Gives .group name) (t : ContactTarget) :
    (s.tryOpenGroups names).list.HasChannel t ↔
      (∃ name ∈ names, t = .group name) ∨ s.list.HasChannel t :=
  hasChannel_tryOpenAll ContactTarget.group h t

/-! ## What becomes of early groups -/

section Definitions

variable (server s)

/-- The groups that were there before the roster and that the server does not know. -/
def earlyGroups : List String := s.list.groupNames.filter (· ∉ s.knownGroups server)

/-- Whether the server is asked to create these. -/
def AsksForGroups : Prop :=
  s.earlyGroups server ≠ [] ∧ s.list.capabilities.groups.isEditable = true

instance : Decidable (s.AsksForGroups server) := inferInstanceAs (Decidable (_ ∧ _))

/-- The request to create the early groups, as a call. -/
def creation : Mutation := .createGroups (s.earlyGroups server)

/-- How the server reacts to it: its answer and its data. -/
def reaction : ServerAnswer × σ :=
  server.mutate (fun h => (s.tables.inspect ⟨.contact, h⟩).getD "") s.server (s.creation server)

/-- The server's data when the contact list reads them. -/
def dataRead : σ := if s.AsksForGroups server then (s.reaction server).2 else s.server

/-- Whether the early groups come to be. -/
def GrantsGroups : Prop := s.AsksForGroups server ∧ (s.reaction server).1 = .done

instance : Decidable (s.GrantsGroups server) := inferInstanceAs (Decidable (_ ∧ _))

/-- The calls to the server that the arrival of the roster leads to. -/
def loadCalls : List ServerCall :=
  if s.AsksForGroups server then
    [⟨s.creation server,
      (s.creation server).text fun h => (s.tables.inspect ⟨.contact, h⟩).getD "",
      (s.reaction server).1⟩]
  else []

end Definitions

theorem Opens.knownGroups (h : s.Opens s₁) : s₁.knownGroups server = s.knownGroups server := by
  have hcapabilities : s₁.list.capabilities = s.list.capabilities := congrArg Prod.fst h.settings
  simp only [ContactScene.knownGroups, hcapabilities, h.quiet.server]

theorem mem_earlyGroups {name : String} :
    name ∈ s.earlyGroups server ↔
      s.list.HasChannel (.group name) ∧ name ∉ s.knownGroups server := by
  simp [earlyGroups, ContactList.mem_groupNames]

/-- Scenes whose servers know the same groups and that have the same others have the same early
groups, in the same order. -/
theorem earlyGroups_congr (hknown : s₁.knownGroups server = s.knownGroups server)
    (h : ∀ name, name ∉ s.knownGroups server →
      (s₁.list.HasChannel (.group name) ↔ s.list.HasChannel (.group name))) :
    s₁.earlyGroups server = s.earlyGroups server := by
  have hascending : ∀ s : ContactScene σ,
      (s.earlyGroups server).Pairwise fun a b => compare a b = .lt :=
    fun s => s.list.groupNames_ascending.filter _
  have hsets : (⟨_, hascending s₁⟩ : SortedSet String) = ⟨_, hascending s⟩ := by
    refine SortedSet.ext_mem fun name => ?_
    rw [SortedSet.mem_def, SortedSet.mem_def, mem_earlyGroups, mem_earlyGroups, hknown]
    exact and_congr_left fun hname => h name hname
  exact congrArg SortedSet.toList hsets

/-- What becomes of early groups depends on which they are, on the server and on who the contacts
are. -/
theorem plan_congr (hearly : s₁.earlyGroups server = s.earlyGroups server)
    (hcapabilities : s₁.list.capabilities = s.list.capabilities) (hserver : s₁.server = s.server)
    (hcontact : s₁.tables.contact = s.tables.contact) :
    s₁.dataRead server = s.dataRead server ∧ s₁.loadCalls server = s.loadCalls server ∧
      (s₁.GrantsGroups server ↔ s.GrantsGroups server) := by
  have hname : ∀ h, s₁.tables.inspect ⟨.contact, h⟩ = s.tables.inspect ⟨.contact, h⟩ := by
    intro h
    simp only [HandleTables.inspect, HandleTables.get?, hcontact]
  have hasks : s₁.AsksForGroups server = s.AsksForGroups server := by
    rw [AsksForGroups, AsksForGroups, hearly, hcapabilities]
  have hreaction : s₁.reaction server = s.reaction server := by
    simp only [reaction, creation, hname, hearly, hserver]
  refine ⟨?_, ?_, ?_⟩
  · simp only [dataRead, hasks, hreaction, hserver]
  · simp only [loadCalls, creation, hasks, hreaction, hname, hearly]
  · rw [GrantsGroups, GrantsGroups, hasks, hreaction]

theorem dataRead_of_not_asks (h : ¬ s.AsksForGroups server) : s.dataRead server = s.server := by
  rw [dataRead, if_neg h]

theorem loadCalls_of_not_asks (h : ¬ s.AsksForGroups server) :
    s.calls ++ s.loadCalls server = s.calls := by
  rw [loadCalls, if_neg h, List.append_nil]

/-- What is left of a scene when the early groups are settled. -/
structure Settles (server : ContactServer σ) (s s' : ContactScene σ) : Prop where
  data : s'.server = s.dataRead server
  calls : s'.calls = s.calls ++ s.loadCalls server
  announcements : s'.announcements = s.announcements
  tables : s.tables.Grows s'.tables
  /-- A channel is gone if it is that of an early group that is not granted. -/
  channels : ∀ t, s'.list.channels.get? t =
    if (∃ name ∈ s.earlyGroups server, t = .group name) ∧ ¬ s.GrantsGroups server then none
    else s.list.channels.get? t

theorem announcements_call (s : ContactScene σ) (m : Mutation) :
    (s.call server m).2.announcements = s.announcements := by
  simp [announcements, call, Effect.announced?]

theorem calls_call (s : ContactScene σ) (m : Mutation) :
    (s.call server m).2.calls = s.calls ++
      [⟨m, m.text fun h => (s.tables.inspect ⟨.contact, h⟩).getD "",
        (server.mutate (fun h => (s.tables.inspect ⟨.contact, h⟩).getD "") s.server m).1⟩] := by
  simp [calls, call, Effect.call?]

/-- Giving up groups changes no more than that they are gone. -/
theorem abandonGroups_settles {e : Error} (hgrants : ¬ s.GrantsGroups server)
    (hserver : s₁.server = s.dataRead server) (hcalls : s₁.calls = s.calls ++ s.loadCalls server)
    (hannouncements : s₁.announcements = s.announcements) (htables : s.tables.Grows s₁.tables)
    (hchannels : s₁.list.channels = s.list.channels) :
    s.Settles server ((s.earlyGroups server).foldl (abandonGroup e) s₁) := by
  have hquiet := Local.foldl (fun s name => s.local_abandonGroup e name) (s.earlyGroups server) s₁
  refine ⟨hquiet.server.trans hserver, hquiet.calls.trans hcalls,
    hquiet.announcements.trans hannouncements, htables.trans hquiet.tables, fun t => ?_⟩
  rw [get?_abandonGroups, hchannels]
  simp only [hgrants, not_false_eq_true, and_true]

theorem settles_settleRequestedGroups (s : ContactScene σ) :
    s.Settles server (s.settleRequestedGroups server (s.knownGroups server)) := by
  have hearly : (s.list.groupNames.filter (· ∉ s.knownGroups server)) = s.earlyGroups server := rfl
  unfold settleRequestedGroups
  rw [hearly]
  split
  case h_1 hnone =>
    have hasks : ¬ s.AsksForGroups server := fun h => h.1 hnone
    refine ⟨(dataRead_of_not_asks hasks).symm, (loadCalls_of_not_asks hasks).symm, rfl, .refl _,
      fun t => ?_⟩
    rw [hnone, if_neg]
    rintro ⟨⟨name, hname, -⟩, -⟩
    cases hname
  case h_2 hcons =>
    rw [← hcons]
    have hsome : s.earlyGroups server ≠ [] := by
      rw [hcons]
      exact List.cons_ne_nil _ _
    by_cases heditable : s.list.capabilities.groups.isEditable = true
    · -- The server is asked, and its answer decides.
      have hasks : s.AsksForGroups server := ⟨hsome, heditable⟩
      have hserver : (s.call server (s.creation server)).2.server = s.dataRead server := by
        rw [dataRead, if_pos hasks]
        rfl
      have hcalls : (s.call server (s.creation server)).2.calls =
          s.calls ++ s.loadCalls server := by
        rw [calls_call, loadCalls, if_pos hasks]
        rfl
      have htables : s.tables.Grows (s.call server (s.creation server)).2.tables :=
        HandleTables.grows_exchangeContacts _ _ _
      rw [if_pos heditable]
      simp only
      split
      case h_1 hdone =>
        have hgrants : s.GrantsGroups server :=
          ⟨hasks, ServerAnswer.error?_eq_none.mp hdone⟩
        refine ⟨hserver, hcalls, announcements_call s _, htables, fun t => ?_⟩
        rw [if_neg fun h => h.2 hgrants]
        rfl
      case h_2 e hfailed =>
        have hgrants : ¬ s.GrantsGroups server := by
          intro h
          have hdone : (s.call server (s.creation server)).1 = none :=
            ServerAnswer.error?_eq_none.mpr h.2
          have hfailed' : (s.call server (s.creation server)).1 = some e := hfailed
          rw [hdone] at hfailed'
          cases hfailed'
        exact abandonGroups_settles hgrants hserver hcalls (announcements_call s _) htables rfl
    · -- Nobody is asked, and the groups go away.
      have hasks : ¬ s.AsksForGroups server := fun h => heditable h.2
      rw [if_neg heditable]
      exact abandonGroups_settles (fun h => hasks h.1) (dataRead_of_not_asks hasks).symm
        (loadCalls_of_not_asks hasks).symm rfl (.refl _) rfl

/-! ## Ready to be filled -/

/-- The contact list has all its channels, and nobody is on them. -/
structure Prepares (server : ContactServer σ) (s s' : ContactScene σ) : Prop where
  data : s'.server = s.dataRead server
  calls : s'.calls = s.calls ++ s.loadCalls server
  announcements : s'.announcements = s.announcements
  tables : s.tables.Grows s'.tables
  settings : s'.list.settings = (s.list.capabilities, .received)
  nobody : ∀ t h, s'.list.standing? t h = none
  unannounced : s'.list.Unannounced
  lists : ∀ k, s'.list.HasChannel (.list k) ↔ k.isSupported s.list.capabilities = true
  groups : ∀ name, s'.list.HasChannel (.group name) ↔
    name ∈ s.knownGroups server ∨ name ∈ s.earlyGroups server ∧ s.GrantsGroups server

theorem hasChannel_of_channels {t : ContactTarget} {P : Prop} [Decidable P]
    (h : s₁.list.channels.get? t = if P then none else s.list.channels.get? t) :
    s₁.list.HasChannel t ↔ ¬ P ∧ s.list.HasChannel t := by
  rw [ContactList.HasChannel, ContactList.HasChannel, SortedMap.contains, SortedMap.contains, h]
  by_cases hP : P <;> simp [hP]

/-- Whatever was there before, all lists and known groups are there once they are opened. -/
theorem hasChannel_opened
    (hlists : ∀ k ∈ ListKind.all, k.isSupported s.list.capabilities = true →
      s.tables.Gives .list k.name)
    (hgroups : ∀ name ∈ s.knownGroups server, s.tables.Gives .group name) (t : ContactTarget) :
    (s.openLists.tryOpenGroups (s.knownGroups server)).list.HasChannel t ↔
      (∃ name ∈ s.knownGroups server, t = .group name) ∨
        (∃ k, ListKind.isSupported k s.list.capabilities = true ∧ t = .list k) ∨
          s.list.HasChannel t := by
  rw [hasChannel_tryOpenGroups, hasChannel_openLists hlists]
  intro name hname
  exact s.opens_openLists.quiet.tables.gives (hgroups name hname)

/-- When the roster arrives, the channels that were requested before make way for those there should
be. -/
theorem prepares_loadGroups (hpending : s.list.roster = .pending) (hunfilled : s.list.Unfilled)
    (hlists : ∀ k ∈ ListKind.all, k.isSupported s.list.capabilities = true →
      s.tables.Gives .list k.name)
    (hgroups : ∀ name ∈ s.knownGroups server, s.tables.Gives .group name) :
    s.Prepares server
      ((openLists { s with list := { s.list with roster := .received } }).loadGroups server) := by
  let s₀ : ContactScene σ := { s with list := { s.list with roster := .received } }
  let s₁ := s₀.openLists
  let s₂ := s₁.tryOpenGroups (s.knownGroups server)
  have hopened : s₀.Opens s₁ := s₀.opens_openLists
  have hopens : s₀.Opens s₂ := hopened.trans (s₁.opens_tryOpenGroups _)
  have hcapabilities : s₂.list.capabilities = s.list.capabilities :=
    congrArg Prod.fst hopens.settings
  have hthere : ∀ t, s₂.list.HasChannel t ↔ (∃ name ∈ s.knownGroups server, t = .group name) ∨
      (∃ k, ListKind.isSupported k s.list.capabilities = true ∧ t = .list k) ∨
        s.list.HasChannel t := fun t => hasChannel_opened (s := s₀) hlists hgroups t
  have hearly : s₂.earlyGroups server = s.earlyGroups server := by
    refine earlyGroups_congr hopens.knownGroups fun name hname => ?_
    rw [hthere]
    simp [hname]
  obtain ⟨hdata, hcalls, hgrants⟩ :=
    plan_congr hearly hcapabilities hopens.quiet.server hopens.contact
  have hload : s₁.loadGroups server =
      s₂.settleRequestedGroups server (s₂.knownGroups server) := by
    rw [loadGroups, hopened.knownGroups, hopens.knownGroups]
    rfl
  have hsettles : s₂.Settles server (s₁.loadGroups server) := by
    rw [hload]
    exact settles_settleRequestedGroups s₂
  have hhas : ∀ t, (s₁.loadGroups server).list.HasChannel t ↔
      ¬ ((∃ name ∈ s.earlyGroups server, t = .group name) ∧ ¬ s.GrantsGroups server) ∧
        s₂.list.HasChannel t := by
    intro t
    rw [hasChannel_of_channels (hsettles.channels t), hearly, hgrants]
  refine
    { data := hsettles.data.trans hdata
      calls := ?_
      announcements := hsettles.announcements.trans hopens.quiet.announcements
      tables := hopens.quiet.tables.trans hsettles.tables
      settings := ?_
      nobody := fun t h => ?_
      unannounced := fun t c hc => ?_
      lists := fun k => ?_
      groups := fun name => ?_ }
  · rw [hsettles.calls, hcalls, hopens.quiet.calls]
    rfl
  · rw [settings_loadGroups, hopened.settings]
    rfl
  · have hbefore : s₂.list.standing? t h = none :=
      (hopens.standing t h).trans (hunfilled.standing? hpending t h)
    rw [ContactList.standing?, hsettles.channels]
    split
    · rfl
    · exact hbefore
  · rw [hsettles.channels] at hc
    split at hc
    · cases hc
    · exact hopens.unannounced (hunfilled.unannounced hpending) t c hc
  · rw [hhas, hthere]
    constructor
    · rintro ⟨-, ⟨name, -, h⟩ | ⟨k', hk', h⟩ | hold⟩
      · cases h
      · cases h
        exact hk'
      · exact hunfilled.isSupported hpending hold
    · intro hk
      exact ⟨by simp, .inr (.inl ⟨k, hk, rfl⟩)⟩
  · rw [hhas, hthere]
    simp only [ContactTarget.group.injEq, exists_eq_right', reduceCtorEq, and_false, exists_false,
      false_or, mem_earlyGroups]
    by_cases hn : name ∈ s.knownGroups server
    · simp [hn]
    · by_cases hold : s.list.HasChannel (.group name) <;> simp [hn, hold]

end ContactScene

end Telepathy

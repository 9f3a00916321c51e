import Telepathy.Proofs.ContactList.Attempts
import Telepathy.Proofs.ContactList.Settled
import Telepathy.Proofs.Group.Batch

set_option autoImplicit false

/-!
# The members of a group that is renamed

When a group gets a new name, the channel for the new name is made sure of and announced before
anybody is put in, then the members are put in, then they leave the old channel, and at last that
one is closed. So clients see every member in one of the two groups all the time, and hear of each
of them once at either.
-/

namespace Telepathy

/-- What clients of a group are told of contacts who come into it or leave it for another one. -/
def MembersChanged.renaming (added removed : SortedSet Handle) : MembersChanged where
  message := ""
  added := added.toList
  removed := removed.toList
  localPending := []
  remotePending := []
  actor := none
  reason := .renamed

/-- The signal from a channel at `path` of contacts who come or leave, if there are any. -/
def renamingNews (path : ObjectPath) (added removed : SortedSet Handle) :
    List (ObjectPath × Signal) :=
  if added.isEmpty && removed.isEmpty then []
  else [(path, .membersChanged (.renaming added removed))]

/-- The signals of a connection at `home` that a channel came into being which nobody asked for. -/
def arrivalNews (home : ObjectPath) (d : ChannelDetails) : List (ObjectPath × Signal) :=
  [(home, .newChannels [d]),
    (home, .newChannel d.path d.channelType d.entity d.target? false)]

/-- The members of a group, or nobody if it has no channel. -/
def membersOf (channel : Option ContactChannel) : SortedSet Handle :=
  channel.elim .empty (·.membership.members)

/-- What clients of a connection at `home` hear when the members of the channel `c` come to that of
the group `target`, which is `c'` then and was `previous` before. -/
def movingNews (home : ObjectPath) (target : String) (previous : Option ContactChannel)
    (c c' : ContactChannel) : List (ObjectPath × Signal) :=
  (if previous.isSome then [] else arrivalNews home (c'.details (.group target))) ++
    renamingNews c'.path (c.membership.members.diff (membersOf previous)) .empty ++
    renamingNews c.path .empty c.membership.members ++
    [(c.path, .closed), (home, .channelClosed c.path)]

/-- What clients of a connection at `home` hear of an effect that reports on no request. -/
def Effect.news (home : ObjectPath) : Effect → List (ObjectPath × Signal)
  | report (.newChannels []) => []
  | report (.newChannels batch) =>
    (home, .newChannels (batch.map (·.1))) ::
      batch.map fun e => (home, .newChannel e.1.path e.1.channelType e.1.entity e.1.target? false)
  | report (.closed path) => [(home, .channelClosed path)]
  | report _ => []
  | signal path s => [(path, s)]
  | called _ => []

/-- From one state of a contact list to another the members of a group moved to another group, and
nothing else changed; this is what clients of the connection at `home` hear. -/
structure ContactList.Moved (home : ObjectPath) (old target : String) (l l' : ContactList)
    (news : List (ObjectPath × Signal)) : Prop where
  gone : l'.group? old = none
  moved : ∃ c c', l.group? old = some c ∧ l'.group? target = some c' ∧ c'.announced = true ∧
    c'.membership.members = (membersOf (l.group? target)).union c.membership.members ∧
    news = movingNews home target (l.group? target) c c'
  others : ∀ t, t ≠ .group old → t ≠ .group target → l'.channels.get? t = l.channels.get? t

namespace Membership

variable {m : Membership}

/-- When a set is sent to one place because of a renaming, clients are told of those who move. -/
theorem signal_ofSet {handles moving : SortedSet Handle} {p : Place}
    (hmoving : (handles.filter fun h => m.placeOf h ≠ p) = moving) :
    (m.change (.ofSet handles p ⟨none, .renamed, ""⟩)).signal =
      if moving.isEmpty then none
      else
        some (.membersChanged
          { message := ""
            added := if p = .member then moving.toList else []
            removed := if p = .outside then moving.toList else []
            localPending := if p = .localPending then moving.toList else []
            remotePending := if p = .remotePending then moving.toList else []
            actor := none
            reason := .renamed }) := by
  rw [change_signal, moves_ofSet, hmoving, announcement, List.isEmpty_map, SortedSet.isEmpty]
  simp only [movedTo_map]
  rfl

/-- What clients are told when contacts come into a group because another is renamed. -/
theorem signal_of_joining (m : Membership) (path : ObjectPath) (contacts : SortedSet Handle) :
    (m.change (.ofSet contacts .member ⟨none, .renamed, ""⟩)).signal.toList.map (path, ·) =
      renamingNews path (contacts.diff m.members) .empty := by
  have hjoin : (contacts.filter fun h => m.placeOf h ≠ .member) = contacts.diff m.members := by
    refine SortedSet.ext_mem fun h => ?_
    rw [SortedSet.mem_filter, SortedSet.mem_diff, decide_eq_true_iff, members,
      mem_inPlace (by decide)]
  have hnobody : (SortedSet.empty : SortedSet Handle).isEmpty = true := rfl
  rw [signal_ofSet hjoin, renamingNews, hnobody, Bool.and_true]
  split <;> rfl

/-- What clients are told when everybody leaves a group in which nobody waits because it is
renamed. -/
theorem Plain.signal_of_leaving (hm : m.Plain) (path : ObjectPath) :
    (m.removeAll .renamed).signal.toList.map (path, ·) = renamingNews path .empty m.members := by
  have hleave : (m.everyone.filter fun h => m.placeOf h ≠ .outside) = m.members := by
    rw [← hm.everyone_eq]
    refine SortedSet.ext_mem fun h => ?_
    rw [SortedSet.mem_filter, decide_eq_true_iff, and_iff_left_iff_imp, everyone,
      SortedMap.mem_keySet]
    rintro ⟨standing, hstanding⟩
    rw [placeOf, hstanding]
    cases standing <;> simp [Standing.place]
  have hnobody : (SortedSet.empty : SortedSet Handle).isEmpty = true := rfl
  rw [removeAll, signal_ofSet hleave, renamingNews, hnobody, Bool.true_and]
  split <;> rfl

/-- The members once some contacts came in. -/
theorem members_of_joining (m : Membership) (contacts : SortedSet Handle) (w : Provenance) :
    (m.change (.ofSet contacts .member w)).membership.members = m.members.union contacts := by
  refine SortedSet.ext_mem fun h => ?_
  rw [mem_members, change_get?, MembershipChange.get?_ofSet, SortedSet.mem_union, mem_members]
  by_cases hh : h ∈ contacts
  · simp [hh, Standing.ofPlace?]
  · simp [hh]

end Membership

namespace ContactScene

variable {σ : Type} {server : ContactServer σ} {s s₁ s₂ : ContactScene σ}

/-! ## Opening and announcing one channel -/

/-- If clients know of all channels, there is nothing to announce. -/
theorem announcePending_of_told (h : s.list.Told fun _ => True) : s.announcePending = s := by
  have hnone : (s.list.channels.toList.filter fun e => !e.2.announced) = [] := by
    refine List.filter_eq_nil_iff.mpr fun e he => ?_
    simp [(h e.1 e.2 (SortedMap.get?_eq_some_iff.mpr he) trivial).1]
  exact if_pos (.inr hnone)

/-- If clients know of all channels but one, that one is announced. -/
theorem announcePending_of_new (hreceived : s.list.roster = .received)
    {l : ContactList} (htold : l.Told fun _ => True) {t : ContactTarget} {c : ContactChannel}
    (hnone : l.channels.get? t = none) (hlist : s.list = l.put t c)
    (hunknown : c.announced = false) :
    s.announcePending.list.channels.get? t = some c.announce ∧
      (∀ t', t' ≠ t → s.announcePending.list.channels.get? t' = l.channels.get? t') ∧
      s.announcePending.effects =
        s.effects ++ [.report (.newChannels [(c.details t, c.queued)])] := by
  have hpending : (s.list.channels.toList.filter fun e => !e.2.announced) = [(t, c)] := by
    have hothers : (l.channels.toList.filter fun e => !e.2.announced) = [] := by
      refine List.filter_eq_nil_iff.mpr fun e he => ?_
      simp [(htold e.1 e.2 (SortedMap.get?_eq_some_iff.mpr he) trivial).1]
    have hperm := (SortedMap.toList_insert_perm l.channels t c).filter fun e => !e.2.announced
    rw [SortedMap.erase_of_absent hnone, List.filter_cons, hothers,
      if_pos (by simp [hunknown])] at hperm
    rw [hlist]
    exact List.perm_singleton.mp hperm
  have hannounced : s.announcePending =
      { s with
        list :=
          { s.list with
            channels := s.list.channels.mapValues fun _ c =>
              if c.announced then c else c.announce }
        effects := s.effects ++ [.report (.newChannels [(c.details t, c.queued)])] } := by
    unfold announcePending
    simp only [hpending]
    rw [if_neg (by simp [hreceived])]
    rfl
  rw [hannounced, hlist]
  refine ⟨?_, fun t' ht' => ?_, rfl⟩
  · simp [ContactList.put, SortedMap.get?_mapValues, hunknown]
  · simp only [ContactList.put, SortedMap.get?_mapValues, SortedMap.get?_insert, if_neg ht']
    cases hc' : l.channels.get? t' with
    | none => rfl
    | some c' => simp [(htold t' c' hc' trivial).1]

/-- A channel that is made sure of while clients know of all channels is known to them: it was
there, or it is announced, without members. -/
theorem announce_tryOpen (home : ObjectPath) (hreceived : s.list.roster = .received)
    (htold : s.list.Told fun _ => True) {target : String}
    (hgives : s.tables.Gives .group target) :
    let s' := (s.tryOpen (.group target)).announcePending
    (∃ c effects, s'.list.group? target = some c ∧ c.announced = true ∧
      c.membership.members = membersOf (s.list.group? target) ∧
      s'.effects = s.effects ++ effects ∧
      effects.flatMap (Effect.news home) =
        if (s.list.group? target).isSome then []
        else arrivalNews home (c.details (.group target))) ∧
    ∀ t, t ≠ .group target → s'.list.channels.get? t = s.list.channels.get? t := by
  obtain ⟨s₁, hopen⟩ := openChannel_isOk (t := .group target) hgives false
  have htry : s.tryOpen (.group target) = s₁ := by
    unfold tryOpen
    rw [hopen]
  intro s'
  obtain ⟨rfl, hthere⟩ | ⟨hnone, r, -, rfl⟩ := openChannel_cases hopen
  · have hsame : s' = s₁ := by
      show (s₁.tryOpen (.group target)).announcePending = s₁
      rw [htry, announcePending_of_told htold]
    obtain ⟨c, hc⟩ := ContactList.hasChannel_iff.mp hthere
    have hgroup : s₁.list.group? target = some c := hc
    rw [hsame]
    refine ⟨⟨c, [], hgroup, (htold _ c hc trivial).1, ?_, (List.append_nil _).symm, ?_⟩,
      fun _ _ => rfl⟩
    · rw [hgroup]
      rfl
    · rw [hgroup]
      rfl
  · have hgroup : s.list.group? target = none := hnone
    have hs' : s' = (s.tryOpen (.group target)).announcePending := rfl
    rw [htry] at hs'
    obtain ⟨hnew, hothers, heffects⟩ := announcePending_of_new
      (s := { s with
        tables := r.2.retain ⟨.group, r.1⟩
        list := s.list.put (.group target) (s.list.freshChannel (.group target) r.1 false) })
      hreceived htold hnone rfl rfl
    rw [hs', hgroup]
    refine ⟨⟨_, _, hnew, rfl, ?_, heffects, rfl⟩, hothers⟩
    exact members_of_empty rfl

/-- What a batch on a channel makes clients hear. -/
theorem effects_change {t : ContactTarget} {c : ContactChannel}
    (hc : s.list.channels.get? t = some c) (b : MembershipChange) :
    (s.change t b).effects =
      s.effects ++ (c.membership.change b).signal.toList.map (Effect.signal c.path) := by
  unfold change updateMembership
  rw [hc]

theorem news_signals (home path : ObjectPath) (signals : List Signal) :
    (signals.map (Effect.signal path)).flatMap (Effect.news home) = signals.map (path, ·) := by
  rw [List.flatMap_map, List.map_eq_flatMap]
  rfl

/-- The effects of a group's end, if clients know of it and nobody waits for it. -/
theorem effects_dismiss (t : ContactTarget) {c : ContactChannel} (hknown : c.announced = true)
    (hqueued : c.queued = []) (reason : ChangeReason) (e : Error) :
    (s.dismiss t c reason e).effects =
      s.effects ++ (c.membership.removeAll reason).signal.toList.map (Effect.signal c.path) ++
        [.signal c.path .closed, .report (.closed c.path)] := by
  simp only [dismiss, close, hknown, hqueued, if_true, fail, List.map_nil, List.append_nil,
    releaseChannel, emit, List.append_assoc, List.cons_append, List.nil_append]

/-- What renaming a group comes to, as soon as clients know of all channels. -/
theorem moved_moveGroup (home : ObjectPath) (hreceived : s.list.roster = .received)
    (htold : s.list.Told fun _ => True) {old target : String} (hne : target ≠ old)
    {c : ContactChannel} (hc : s.list.group? old = some c) (hplain : c.membership.Plain)
    (hgives : s.tables.Gives .group target) :
    ∃ effects, (s.moveGroup old target).effects = s.effects ++ effects ∧
      s.list.Moved home old target (s.moveGroup old target).list
        (effects.flatMap (Effect.news home)) := by
  obtain ⟨hknown, hqueued⟩ := htold _ c hc trivial
  have hapart : ContactTarget.group target ≠ .group old := fun h => hne (ContactTarget.group.inj h)
  have hdetached : ∀ t, t ≠ .group old →
      (s.detach (.group old)).list.channels.get? t = s.list.channels.get? t := fun t ht => by
    rw [detach, ContactList.remove, SortedMap.get?_erase, if_neg ht]
  have hleft : (s.detach (.group old)).list.Told fun _ => True :=
    ContactList.forall_remove _ htold
  obtain ⟨⟨c', opening, hc', hknown', hmembers, hopening, hnews⟩, hothers⟩ :=
    announce_tryOpen home hreceived hleft (s := s.detach (.group old)) hgives
  have hprevious : (s.detach (.group old)).list.group? target = s.list.group? target :=
    hdetached _ hapart
  rw [hprevious] at hmembers hnews
  let joining : MembershipChange := .ofSet c.membership.members .member ⟨none, .renamed, ""⟩
  let s₁ := ((s.detach (.group old)).tryOpen (.group target)).announcePending
  have hmove : s.moveGroup old target =
      (s₁.change (.group target) joining).dismiss (.group old) c .renamed
        (ContactListRefusal.groupRenamed old).toError := by
    rw [moveGroup, hc]
  have hget : ∀ t, (s.moveGroup old target).list.channels.get? t =
      if t = .group target then
        some { c' with membership := (c'.membership.change joining).membership }
      else if t = .group old then none else s.list.channels.get? t := by
    intro t
    rw [hmove, list_dismiss, get?_change]
    split
    case isTrue =>
      show (s₁.list.group? target).map _ = _
      rw [hc']
      rfl
    case isFalse ht =>
      rw [hothers t ht, detach, ContactList.remove, SortedMap.get?_erase]
  have heffects : (s.moveGroup old target).effects = s.effects ++ (opening ++
      (c'.membership.change joining).signal.toList.map (Effect.signal c'.path) ++
      (c.membership.removeAll .renamed).signal.toList.map (Effect.signal c.path) ++
      [.signal c.path .closed, .report (.closed c.path)]) := by
    rw [hmove, effects_dismiss _ hknown hqueued, effects_change hc', hopening]
    simp only [List.append_assoc]
    rfl
  refine ⟨_, heffects, ?_, ?_, fun t hold htarget => ?_⟩
  · rw [ContactList.group?, hget, if_neg hapart.symm, if_pos rfl]
  · refine ⟨c, _, hc, (hget _).trans (if_pos rfl), hknown', ?_, ?_⟩
    · rw [Membership.members_of_joining, hmembers]
    · rw [List.flatMap_append, List.flatMap_append, List.flatMap_append, hnews, news_signals,
        news_signals, Membership.signal_of_joining, hplain.signal_of_leaving, hmembers]
      rfl
  · rw [hget, if_neg htarget, if_neg hold]

/-! ## Renaming -/

/-- Between two scenes the server was called, and nothing else was done. -/
structure Consults (s s' : ContactScene σ) : Prop where
  list : s'.list = s.list
  tables : s.tables.Grows s'.tables
  effects : ∃ calls : List ServerCall, s'.effects = s.effects ++ calls.map .called

theorem Consults.trans (h : s.Consults s₁) (h' : s₁.Consults s₂) : s.Consults s₂ := by
  obtain ⟨calls, hcalls⟩ := h.effects
  obtain ⟨calls', hcalls'⟩ := h'.effects
  refine ⟨h'.list.trans h.list, h.tables.trans h'.tables, calls ++ calls', ?_⟩
  rw [hcalls', hcalls, List.map_append, List.append_assoc]

theorem consults_of_call {m : Mutation} {failure : Option Error}
    (h : s.call server m = (failure, s₁)) : s.Consults s₁ := by
  have hcall : s.Consults (s.call server m).2 :=
    ⟨rfl, HandleTables.grows_exchangeContacts _ _ _, [_], rfl⟩
  rwa [h] at hcall

/-- A renaming that the server carries out is a matter of calls, however it is done. -/
theorem consults_callRename {rename : GroupRename} {old target : String}
    {members : SortedSet Handle}
    (h : s.callRename server rename old target members = (none, s₁)) : s.Consults s₁ := by
  cases rename with
  | native => exact consults_of_call h
  | emulated =>
    simp only [callRename, emulateRename] at h
    split at h
    case h_1 => cases h
    case h_2 s₂ hcreate =>
      have hcopied : s.Consults (if members.isEmpty then (none, s₂)
          else s₂.call server (.addToGroup target members)).2 := by
        split
        · exact consults_of_call hcreate
        · exact (consults_of_call hcreate).trans (consults_of_call rfl)
      split at h
      case h_1 => cases h
      case h_2 =>
        split at h
        case h_1 => cases h
        case h_2 hremove =>
          cases h
          exact hcopied.trans (consults_of_call hremove)

section Renaming

variable (home : ObjectPath) (hreceived : s.list.roster = .received)
  (htold : s.list.Told fun _ => True) (htidy : s.list.Tidy server) {old new o n : String}
  (hold : server.normaliseGroup old = some o) (hnew : server.normaliseGroup new = some n)
  (hne : n ≠ o) (hgroup : s.list.HasChannel (.group o)) (hgives : s.tables.Gives .group n)

include hreceived htold htidy hold hnew hne hgroup hgives

/-- What the server's notice that a group has a new name comes to. -/
theorem moved_groupRenamed :
    ∃ effects, (s.groupRenamed server old new).effects = s.effects ++ effects ∧
      s.list.Moved home o n (s.groupRenamed server old new).list
        (effects.flatMap (Effect.news home)) := by
  obtain ⟨c, hc⟩ := ContactList.hasChannel_iff.mp hgroup
  have hmoves : s.groupRenamed server old new = s.moveGroup o n := by
    rw [groupRenamed, if_pos (htidy.follows o c hc), hold, hnew]
  rw [hmoves]
  exact moved_moveGroup home hreceived htold hne hc (htidy.plain o c hc) hgives

/-- What a client's renaming that succeeds comes to. -/
theorem moved_renameGroup
    (hidempotent : ∀ name canonical, server.normaliseGroup name = some canonical →
      server.normaliseGroup canonical = some canonical)
    (hok : s.renameGroup server old new = (.ok (), s₁)) :
    s.list.group? n = none ∧ ∃ effects, s₁.effects = s.effects ++ effects ∧
      s.list.Moved home o n s₁.list (effects.flatMap (Effect.news home)) := by
  unfold renameGroup at hok
  split at hok
  case h_1 => cases hok
  case h_2 rename oldName target members hchecked =>
    obtain ⟨_, _, _, c, hsame, -, hold', hnew', -, hfree⟩ := checkRenaming_eq_ok hchecked
    cases hsame
    cases hold.symm.trans hold'
    cases hnew.symm.trans hnew'
    split at hok
    case h_1 => cases hok
    case h_2 s₂ hcall =>
      cases hok
      have hasked := consults_callRename hcall
      obtain ⟨calls, hcalls⟩ := hasked.effects
      obtain ⟨effects, heffects, hmoved⟩ := moved_groupRenamed (s := s₂) home
        (by rw [hasked.list, hreceived]) (by rw [hasked.list]; exact htold)
        (by rw [hasked.list]; exact htidy) (hidempotent _ _ hold) (hidempotent _ _ hnew) hne
        (by rw [hasked.list]; exact hgroup) (hasked.tables.gives hgives)
      have hsilent : (calls.map Effect.called).flatMap (Effect.news home) = [] := by
        rw [List.flatMap_map]
        exact List.flatMap_eq_nil_iff.mpr fun _ _ => rfl
      rw [hasked.list] at hmoved
      refine ⟨hfree, calls.map .called ++ effects, ?_, ?_⟩
      · rw [heffects, hcalls, List.append_assoc]
      · rwa [List.flatMap_append, hsilent, List.nil_append]

end Renaming

/-- A renaming to which one of these objections is raised is refused beforehand. -/
theorem checkRenaming_isError {l : ContactList} {old new : String}
    (h : l.capabilities.groups.isEditable = false ∨ server.normaliseGroup old = none ∨
      server.normaliseGroup new = none ∨
      (∃ o, server.normaliseGroup old = some o ∧ l.group? o = none) ∨
      ∃ n, server.normaliseGroup new = some n ∧ l.HasChannel (.group n)) :
    ∃ r, checkRenaming server l old new = .error r := by
  cases hchecked : checkRenaming server l old new with
  | error r => exact ⟨r, rfl⟩
  | ok checked =>
    obtain ⟨rename, o, n, c, -, hrename, hold, hnew, hc, hfree⟩ := checkRenaming_eq_ok hchecked
    exfalso
    rcases h with h | h | h | ⟨o', ho', hnone⟩ | ⟨n', hn', hthere⟩
    · unfold ContactList.renameStrategy at hrename
      split at hrename <;> cases hrename
      rename_i hgroups
      rw [hgroups] at h
      cases h
    · cases h.symm.trans hold
    · cases h.symm.trans hnew
    · cases hold.symm.trans ho'
      cases hc.symm.trans hnone
    · cases hnew.symm.trans hn'
      obtain ⟨c', hc'⟩ := ContactList.hasChannel_iff.mp hthere
      cases hc'.symm.trans hfree

/-- If nobody waits for a channel, no operation reports on a request. -/
theorem reportedTokens_perform (heffects : s.effects = []) (htold : s.list.Told fun _ => True)
    (op : ContactOperation (SortedSet Handle)) :
    reportedTokens (s.perform server op).2.effects = [] := by
  refine List.eq_nil_iff_forall_not_mem.mpr fun token htoken => ?_
  have htally := (s.keepsTokens_perform server op).tally token
  rw [tokenTally, tokenTally, heffects, htold.queuedTokens] at htally
  have hpos := List.count_pos_iff.mpr htoken
  simp only [List.count_nil, reportedTokens, List.flatMap_nil] at htally hpos
  omega

end ContactScene

end Telepathy

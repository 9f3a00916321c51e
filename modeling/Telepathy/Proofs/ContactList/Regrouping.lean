import Telepathy.Proofs.ContactList.Moving
import Telepathy.Proofs.ContactList.Renaming

set_option autoImplicit false

/-!
# Contacts who join and leave groups

A notice of joined and left groups is carried out in three rounds: channels are made sure of and
announced, then the contacts join every group they joined, then they leave every group they left.
The later round decides for a group that is named in both, and a name that is repeated finds
everybody in place. So the notice says exactly who is in which group afterwards, and clients hear of
a group only if its members changed or were made to come and go.
-/

namespace Telepathy

namespace ContactScene

variable {σ : Type} {server : ContactServer σ} {s s₁ : ContactScene σ}

/-- The effects between two scenes. -/
def effectsUntil (s s' : ContactScene σ) : List Effect := s'.effects.drop s.effects.length

theorem effectsUntil_of_append {effects : List Effect}
    (h : s₁.effects = s.effects ++ effects) : s.effectsUntil s₁ = effects := by
  rw [effectsUntil, h, List.drop_left]

/-! ## Channels are opened and announced -/

theorem tryOpenGroups_cons (s : ContactScene σ) (name : String) (names : List String) :
    s.tryOpenGroups (name :: names) = (s.tryOpen (.group name)).tryOpenGroups names := rfl

/-- A channel that is there while groups are opened was there before, or it is new and clients do
not know of it. -/
theorem get?_tryOpenGroups {names : List String} {t : ContactTarget} {c : ContactChannel}
    (hc : (s.tryOpenGroups names).list.channels.get? t = some c) :
    s.list.channels.get? t = some c ∨ c.announced = false := by
  induction names generalizing s with
  | nil => exact .inl hc
  | cons name names ih =>
    rw [tryOpenGroups_cons] at hc
    obtain hc | hnew := ih hc
    · obtain hsame | ⟨r, fresh, -, hvacant, hopened, -⟩ := s.tryOpen_cases (.group name)
      · rw [hsame] at hc
        exact .inl hc
      · rw [hopened] at hc
        simp only [ContactList.put, SortedMap.get?_insert] at hc
        split at hc
        · cases hc
          exact .inr hvacant.unannounced
        · exact .inl hc
    · exact .inr hnew

/-- Opening a channel that is there changes nothing. -/
theorem tryOpen_of_hasChannel {t : ContactTarget} (h : s.list.HasChannel t) : s.tryOpen t = s := by
  have hopen : s.openChannel t false = .ok s := if_pos h
  rw [tryOpen, hopen]

/-- Opening groups adds just these, if each is there or its handle can be had. -/
theorem hasChannel_tryOpenGroups_of_able {names : List String}
    (h : ∀ name ∈ names, s.list.HasChannel (.group name) ∨ s.tables.Gives .group name)
    (t : ContactTarget) :
    (s.tryOpenGroups names).list.HasChannel t ↔
      (∃ name ∈ names, t = .group name) ∨ s.list.HasChannel t := by
  induction names generalizing s with
  | nil => simp [tryOpenGroups]
  | cons name names ih =>
    have hfirst : ∀ t, (s.tryOpen (.group name)).list.HasChannel t ↔
        t = .group name ∨ s.list.HasChannel t := fun t => by
      obtain hthere | hgives := h name List.mem_cons_self
      · rw [tryOpen_of_hasChannel hthere]
        exact ⟨.inr, fun ht => ht.elim (fun heq => heq ▸ hthere) id⟩
      · exact hasChannel_tryOpen hgives t
    have hrest : ∀ name' ∈ names, (s.tryOpen (.group name)).list.HasChannel (.group name') ∨
        (s.tryOpen (.group name)).tables.Gives .group name' := fun name' hname' =>
      (h name' (List.mem_cons_of_mem _ hname')).imp (fun hthere => (hfirst _).mpr (.inr hthere))
        (local_tryOpen s _).tables.gives
    rw [tryOpenGroups_cons, ih hrest, hfirst]
    simp only [List.mem_cons, exists_eq_or_imp, or_assoc, or_left_comm]

theorem effects_tryOpenGroups (s : ContactScene σ) (names : List String) :
    (s.tryOpenGroups names).effects = s.effects := by
  refine List.foldl_rel_of_step (R := fun s s' : ContactScene σ => s'.effects = s.effects)
    (fun _ => rfl) (fun h h' => h'.trans h) (fun s name => ?_) names s
  obtain hsame | ⟨r, c, -, -, hnew, -⟩ := s.tryOpen_cases (.group name)
  · rw [hsame]
  · rw [hnew]

theorem membership?_tryOpen_ne {t t' : ContactTarget} (ht : t' ≠ t) :
    (s.tryOpen t).list.membership? t' = s.list.membership? t' := by
  obtain hsame | ⟨r, c, -, -, hnew, -⟩ := s.tryOpen_cases t
  · rw [hsame]
  · rw [hnew]
    simp [ContactList.membership?, ContactList.put, SortedMap.get?_insert, ht]

theorem membership?_tryOpenGroups_ne {names : List String} {t : ContactTarget}
    (ht : ∀ name ∈ names, t ≠ .group name) :
    (s.tryOpenGroups names).list.membership? t = s.list.membership? t := by
  induction names generalizing s with
  | nil => rfl
  | cons name names ih =>
    exact (ih fun name' hname' => ht name' (List.mem_cons_of_mem _ hname')).trans
      (membership?_tryOpen_ne (ht name List.mem_cons_self))

/-- Once the roster is there, an announcement tells of all channels, and leaves them else as they
are. -/
theorem get?_announcePending (hreceived : s.list.roster = .received) (t : ContactTarget) :
    s.announcePending.list.channels.get? t =
      (s.list.channels.get? t).map fun c => if c.announced then c else c.announce := by
  unfold announcePending
  dsimp only
  split
  case isTrue hnothing =>
    have hknown := List.filter_eq_nil_iff.mp (hnothing.resolve_left fun hne => hne hreceived)
    cases hc : s.list.channels.get? t with
    | none => rfl
    | some c =>
      have := hknown _ (SortedMap.get?_eq_some_iff.mp hc)
      simp_all
  case isFalse => exact SortedMap.get?_mapValues _ _ _

/-- What an announcement tells, it tells in one effect, and of every channel that clients did not
know. -/
theorem effects_announcePending (hreceived : s.list.roster = .received) :
    ∃ effects, s.announcePending.effects = s.effects ++ effects ∧
      (∀ path signal, .signal path signal ∉ effects) ∧
      ∀ t c, s.list.channels.get? t = some c → c.announced = false →
        ∃ batch, .report (.newChannels batch) ∈ effects ∧ c.details t ∈ batch.map Prod.fst := by
  unfold announcePending
  dsimp only
  split
  case isTrue hnothing =>
    have hknown := List.filter_eq_nil_iff.mp (hnothing.resolve_left fun hne => hne hreceived)
    refine ⟨[], (List.append_nil _).symm, fun _ _ => List.not_mem_nil, fun t c hc hnew => ?_⟩
    have := hknown _ (SortedMap.get?_eq_some_iff.mp hc)
    simp [hnew] at this
  case isFalse =>
    refine ⟨_, rfl, fun path signal hmem => ?_,
      fun t c hc hnew => ⟨_, List.mem_singleton_self _, ?_⟩⟩
    · cases List.mem_singleton.mp hmem
    · rw [List.map_map]
      refine List.mem_map.mpr ⟨(t, c), List.mem_filter.mpr ⟨SortedMap.get?_eq_some_iff.mp hc, ?_⟩,
        rfl⟩
      simp [hnew]

theorem standing?_announcePending (s : ContactScene σ) (t : ContactTarget) (h : Handle) :
    s.announcePending.list.standing? t h = s.list.standing? t h := by
  have hstanding : ∀ l : ContactList,
      l.standing? t h = (l.membership? t).bind (·.standings.get? h) := fun l => by
    rw [ContactList.standing?, ContactList.membership?, Option.bind_map]
    rfl
  rw [hstanding, membership?_announcePending, ← hstanding]

/-! ## Contacts come and go -/

/-- Sends some contacts to one place in each of several groups. -/
def sendToGroups (s : ContactScene σ) (contacts : SortedSet Handle) (p : Place)
    (names : List String) : ContactScene σ :=
  s.sendAll ContactTarget.group (fun _ => contacts) p (fun _ => .unstated) names

section Sending

variable {contacts : SortedSet Handle} {p : Place} {names : List String}

theorem sendToGroups_cons (s : ContactScene σ) (name : String) :
    s.sendToGroups contacts p (name :: names) =
      (s.change (.group name) (.ofSet contacts p .unstated)).sendToGroups contacts p names := rfl

theorem moves_sendToGroups (s : ContactScene σ) :
    s.Moves (s.sendToGroups contacts p names) :=
  s.moves_sendAll _ _ _ _ _

theorem membership?_sendToGroups_ne {t : ContactTarget} (ht : ∀ name ∈ names, t ≠ .group name) :
    (s.sendToGroups contacts p names).list.membership? t = s.list.membership? t := by
  induction names generalizing s with
  | nil => rfl
  | cons name names ih =>
    exact (ih fun name' hname' => ht name' (List.mem_cons_of_mem _ hname')).trans
      (membership?_change_ne (ht name List.mem_cons_self) _)

/-- The channels stay, except for who is in them. -/
theorem group?_sendToGroups (contacts : SortedSet Handle) (p : Place) (names : List String)
    {name : String} {c : ContactChannel} (hc : s.list.group? name = some c) :
    ∃ c', (s.sendToGroups contacts p names).list.group? name = some c' ∧ c'.path = c.path ∧
      c'.announced = c.announced ∧ c'.details (.group name) = c.details (.group name) := by
  induction names generalizing s c with
  | nil => exact ⟨c, hc, rfl, rfl, rfl⟩
  | cons first names ih =>
    have hfirst : ∃ m, (s.change (.group first) (.ofSet contacts p .unstated)).list.group? name =
        some { c with membership := m } := by
      rw [ContactList.group?, get?_change]
      split
      · next heq =>
        rw [← heq, ← ContactList.group?, hc]
        exact ⟨_, rfl⟩
      · exact ⟨c.membership, hc⟩
    obtain ⟨m, hm⟩ := hfirst
    obtain ⟨c', hc', hpath, hannounced, hdetails⟩ := ih hm
    exact ⟨c', hc', hpath, hannounced, hdetails⟩

/-- In the groups that are named, the contacts are at their place then. -/
theorem standing?_sendToGroups {name : String} {h : Handle}
    (hthere : name ∈ names → s.list.HasChannel (.group name) ∨ p = .outside) :
    (s.sendToGroups contacts p names).list.standing? (.group name) h =
      if name ∈ names ∧ h ∈ contacts then Standing.ofPlace? p .unstated
      else s.list.standing? (.group name) h := by
  by_cases hname : name ∈ names
  · by_cases hchannel : s.list.HasChannel (.group name)
    · rw [sendToGroups, standing?_sendAll _ _ _ _ hchannel fun _ _ _ _ => rfl]
      have hnamed : (∃ a ∈ names, ContactTarget.group name = .group a ∧ h ∈ contacts) ↔
          name ∈ names ∧ h ∈ contacts :=
        ⟨fun ⟨a, ha, heq, hh⟩ => ⟨ContactTarget.group.inj heq ▸ ha, hh⟩,
          fun ⟨ha, hh⟩ => ⟨name, ha, rfl, hh⟩⟩
      simp only [hnamed]
    · -- Nobody leaves a group without a channel.
      obtain rfl := (hthere hname).resolve_left hchannel
      have hnone : ∀ s' : ContactScene σ, ¬ s'.list.HasChannel (.group name) →
          s'.list.standing? (.group name) h = none := fun s' h' => by
        rw [ContactList.hasChannel_iff] at h'
        have : s'.list.channels.get? (.group name) = none :=
          Option.eq_none_iff_forall_ne_some.mpr fun c hc => h' ⟨c, hc⟩
        rw [ContactList.standing?, this, Option.bind_none]
      rw [hnone _ fun h' => hchannel (((moves_sendToGroups s).hasChannel _).mp h'),
        hnone _ hchannel]
      split <;> rfl
  · rw [if_neg fun h => hname h.1, sendToGroups, standing?_sendAll_ne _ _ _ _ fun a ha heq => ?_]
    cases heq
    exact hname ha

/-- Clients hear only of groups that are named, and of each only if one of the contacts was
elsewhere at first. -/
theorem effects_sendToGroups (s : ContactScene σ) (contacts : SortedSet Handle) (p : Place)
    (names : List String) :
    ∃ effects, (s.sendToGroups contacts p names).effects = s.effects ++ effects ∧
      ∀ e ∈ effects, ∃ name ∈ names, ∃ c signal, s.list.group? name = some c ∧
        e = .signal c.path signal ∧ ∃ h ∈ contacts, c.membership.placeOf h ≠ p := by
  induction names generalizing s with
  | nil => exact ⟨[], (List.append_nil _).symm, fun e he => nomatch he⟩
  | cons name names ih =>
    let b : MembershipChange := .ofSet contacts p .unstated
    obtain ⟨later, hlater, hheard⟩ := ih (s.change (.group name) b)
    have hrest : ∀ e ∈ later, ∃ name' ∈ names, ∃ c signal, s.list.group? name' = some c ∧
        e = .signal c.path signal ∧ ∃ h ∈ contacts, c.membership.placeOf h ≠ p := by
      intro e he
      obtain ⟨name', hname', c, signal, hc, hsignal, h, hh, hplace⟩ := hheard e he
      rw [ContactList.group?, get?_change] at hc
      split at hc
      · -- The same group again: everybody is in place already.
        obtain ⟨c₀, -, rfl⟩ := Option.map_eq_some_iff.mp hc
        simp [b, Membership.placeOf_change, MembershipChange.get?_ofSet, hh] at hplace
      · exact ⟨name', hname', c, signal, hc, hsignal, h, hh, hplace⟩
    cases hc : s.list.group? name with
    | none =>
      have hskip : s.change (.group name) b = s := by
        unfold change updateMembership
        rw [← ContactList.group?, hc]
      rw [hskip] at hlater
      refine ⟨later, by rw [sendToGroups_cons, hskip, hlater], fun e he => ?_⟩
      obtain ⟨name', hname', hrest⟩ := hrest e he
      exact ⟨name', List.mem_cons_of_mem _ hname', hrest⟩
    | some c =>
      refine ⟨(c.membership.change b).signal.toList.map (Effect.signal c.path) ++ later, ?_,
        fun e he => ?_⟩
      · rw [← List.append_assoc, ← effects_change hc]
        exact hlater
      · obtain he | he := List.mem_append.mp he
        · obtain ⟨signal, hsignal, rfl⟩ := List.mem_map.mp he
          refine ⟨name, List.mem_cons_self, c, signal, hc, rfl, ?_⟩
          rw [Option.mem_toList, Membership.change_signal, Membership.announcement] at hsignal
          cases hmoves : c.membership.moves b with
          | nil => simp [hmoves] at hsignal
          | cons move moves =>
            obtain ⟨hplace, hmoved⟩ := Membership.mem_moves.mp (hmoves ▸ List.mem_cons_self)
            rw [MembershipChange.get?_ofSet] at hplace
            split at hplace
            · next hh =>
              cases hplace
              exact ⟨_, hh, hmoved⟩
            · cases hplace
        · obtain ⟨name', hname', hrest⟩ := hrest e he
          exact ⟨name', List.mem_cons_of_mem _ hname', hrest⟩

end Sending

/-! ## The whole notice -/

theorem mem_membersOf {l : ContactList} {name : String} {h : Handle} :
    h ∈ membersOf (l.group? name) ↔ l.standing? (.group name) h = some .member := by
  rw [ContactList.standing?, ← ContactList.group?]
  cases l.group? name with
  | none => simp [membersOf]
  | some c => simp [membersOf, Membership.mem_members]

/-- From one scene to a later one, `contacts` joined some groups and left others. -/
structure Regroups (contacts : SortedSet Handle) (joined left : List String)
    (s s' : ContactScene σ) : Prop where
  /-- Clients know of every group that is joined, from before or from now on. -/
  known : ∀ name ∈ joined, ∃ c, s'.list.group? name = some c ∧ c.announced = true ∧
    ((∃ c₀, s.list.group? name = some c₀ ∧ c₀.announced = true) ∨
      ∃ batch, .report (.newChannels batch) ∈ s.effectsUntil s' ∧
        c.details (.group name) ∈ batch.map Prod.fst)
  /-- The groups that are joined are the only channels that may be new, and none is gone. -/
  channels : ∀ t, s'.list.HasChannel t ↔ (∃ name ∈ joined, t = .group name) ∨ s.list.HasChannel t
  members : ∀ name, membersOf (s'.list.group? name) =
    if name ∈ left then (membersOf (s.list.group? name)).diff contacts
    else if name ∈ joined then (membersOf (s.list.group? name)).union contacts
    else membersOf (s.list.group? name)
  /-- Nobody moves on the lists and in other groups. -/
  others : ∀ t, (∀ name ∈ joined ++ left, t ≠ .group name) →
    s'.list.membership? t = s.list.membership? t
  /-- Clients hear only of groups whose members changed, or may have come and gone. -/
  signals : ∀ path e, .signal path (.membersChanged e) ∈ s.effectsUntil s' →
    ∃ name c, s'.list.group? name = some c ∧ c.path = path ∧
      (c.membership.members ≠ membersOf (s.list.group? name) ∨ name ∈ joined ∧ name ∈ left)

section Notice

variable {contacts : SortedSet Handle} {joined left : List String}

/-- Everybody in a group is a member. -/
def PlainGroups (s : ContactScene σ) : Prop :=
  ∀ name h standing, s.list.standing? (.group name) h = some standing → standing = .member

theorem plainGroups_of_tidy (h : s.list.Tidy server) : s.PlainGroups := by
  intro name x standing hx
  obtain ⟨c, hc, hx⟩ := Option.bind_eq_some_iff.mp hx
  exact h.plain name c hc x standing hx

theorem placeOf_eq_member_iff {name : String} {c : ContactChannel}
    (hc : s.list.group? name = some c) (x : Handle) :
    c.membership.placeOf x = .member ↔ x ∈ membersOf (s.list.group? name) := by
  rw [hc, membersOf, Option.elim_some, Membership.members, Membership.mem_inPlace (by decide)]

theorem PlainGroups.placeOf_eq_outside_iff (h : s.PlainGroups) {name : String} {c : ContactChannel}
    (hc : s.list.group? name = some c) (x : Handle) :
    c.membership.placeOf x = .outside ↔ x ∉ membersOf (s.list.group? name) := by
  have hstanding : s.list.standing? (.group name) x = c.membership.standings.get? x := by
    rw [ContactList.standing?, ← ContactList.group?, hc, Option.bind_some]
  have hplain := h name x
  rw [hstanding] at hplain
  rw [mem_membersOf, hstanding, Membership.placeOf]
  cases hx : c.membership.standings.get? x with
  | none => simp
  | some standing =>
    cases hplain standing hx
    simp [Standing.place]

/-- The groups that are joined have channels, clients know of these, and nobody moved. -/
structure Readies (joined : List String) (s s' : ContactScene σ) : Prop where
  standing : ∀ t h, s'.list.standing? t h = s.list.standing? t h
  channels : ∀ t, s'.list.HasChannel t ↔ (∃ name ∈ joined, t = .group name) ∨ s.list.HasChannel t
  others : ∀ t, (∀ name ∈ joined, t ≠ .group name) →
    s'.list.membership? t = s.list.membership? t
  told : ∃ effects, s'.effects = s.effects ++ effects ∧
    (∀ path signal, .signal path signal ∉ effects) ∧
    ∀ name ∈ joined, ∃ c, s'.list.group? name = some c ∧ c.announced = true ∧
      ((∃ c₀, s.list.group? name = some c₀ ∧ c₀.announced = true) ∨
        ∃ batch, .report (.newChannels batch) ∈ effects ∧
          c.details (.group name) ∈ batch.map Prod.fst)

theorem readies_tryOpenGroups (hreceived : s.list.roster = .received)
    (hable : ∀ name ∈ joined, s.list.HasChannel (.group name) ∨ s.tables.Gives .group name) :
    s.Readies joined (s.tryOpenGroups joined).announcePending := by
  have hopens := s.opens_tryOpenGroups joined
  have hreceived₁ : (s.tryOpenGroups joined).list.roster = .received :=
    (congrArg Prod.snd hopens.settings).trans hreceived
  have hget := get?_announcePending hreceived₁
  have hchannels := hasChannel_tryOpenGroups_of_able hable
  refine ⟨fun t h => ?_, fun t => ?_, fun t ht => ?_, ?_⟩
  · rw [standing?_announcePending, hopens.standing]
  · rw [← hchannels, ContactList.HasChannel, ContactList.HasChannel, SortedMap.contains,
      SortedMap.contains, hget, Option.isSome_map]
  · rw [membership?_announcePending, membership?_tryOpenGroups_ne ht]
  · obtain ⟨effects, heffects, hquiet, htells⟩ := effects_announcePending hreceived₁
    refine ⟨effects, by rw [heffects, effects_tryOpenGroups], hquiet, fun name hname => ?_⟩
    obtain ⟨c, hc⟩ := ContactList.hasChannel_iff.mp ((hchannels _).mpr (.inl ⟨name, hname, rfl⟩))
    rw [ContactList.group?, hget, hc, Option.map_some]
    cases hknown : c.announced with
    | true =>
      refine ⟨c, by simp, hknown, .inl ⟨c, ?_, hknown⟩⟩
      obtain hold | hnew := get?_tryOpenGroups hc
      · exact hold
      · rw [hknown] at hnew
        cases hnew
    | false =>
      obtain ⟨batch, hbatch, hdetails⟩ := htells _ c hc hknown
      exact ⟨c.announce, by simp, rfl, .inr ⟨batch, hbatch, hdetails⟩⟩

/-- Some contacts join groups, and then they leave others. -/
def regroup (s : ContactScene σ) (contacts : SortedSet Handle) (joined left : List String) :
    ContactScene σ :=
  (s.sendToGroups contacts .member joined).sendToGroups contacts .outside left

theorem groupsChanged_eq (hfollows : s.list.followsGroups = true)
    (hreceived : s.list.roster = .received) (contacts : SortedSet Handle)
    (added removed : List String) :
    s.groupsChanged server contacts added removed =
      (s.tryOpenGroups (added.filterMap server.normaliseGroup)).announcePending.regroup contacts
        (added.filterMap server.normaliseGroup) (removed.filterMap server.normaliseGroup) :=
  if_pos ⟨hfollows, hreceived⟩

theorem group?_regroup (contacts : SortedSet Handle) (joined left : List String) {name : String}
    {c : ContactChannel} (hc : s.list.group? name = some c) :
    ∃ c', (s.regroup contacts joined left).list.group? name = some c' ∧ c'.path = c.path ∧
      c'.announced = c.announced ∧ c'.details (.group name) = c.details (.group name) := by
  obtain ⟨c', hc', hpath, hannounced, hdetails⟩ :=
    group?_sendToGroups contacts .member joined hc
  obtain ⟨c'', hc'', hpath', hannounced', hdetails'⟩ :=
    group?_sendToGroups contacts .outside left hc'
  exact ⟨c'', hc'', hpath'.trans hpath, hannounced'.trans hannounced, hdetails'.trans hdetails⟩

namespace Readies

variable (h : s.Readies joined s₁)

include h

theorem members (name : String) :
    membersOf (s₁.list.group? name) = membersOf (s.list.group? name) :=
  SortedSet.ext_mem fun x => by rw [mem_membersOf, mem_membersOf, h.standing]

/-- Who is in which group between joining and leaving. -/
theorem standing?_joined (name : String) (x : Handle) :
    (s₁.sendToGroups contacts .member joined).list.standing? (.group name) x =
      if name ∈ joined ∧ x ∈ contacts then some .member
      else s.list.standing? (.group name) x := by
  rw [standing?_sendToGroups fun hname => .inl ((h.channels _).mpr (.inl ⟨name, hname, rfl⟩)),
    h.standing]
  rfl

theorem plainGroups_joined (hplain : s.PlainGroups) :
    (s₁.sendToGroups contacts .member joined).PlainGroups := by
  intro name x standing hx
  rw [h.standing?_joined] at hx
  split at hx
  · exact (Option.some.inj hx).symm
  · exact hplain name x standing hx

theorem members_joined {name : String} (hname : name ∉ joined) :
    membersOf ((s₁.sendToGroups contacts .member joined).list.group? name) =
      membersOf (s.list.group? name) :=
  SortedSet.ext_mem fun x => by
    rw [mem_membersOf, mem_membersOf, h.standing?_joined, if_neg fun h => hname h.1]

theorem members_regroup (contacts : SortedSet Handle) (left : List String) (name : String) :
    membersOf ((s₁.regroup contacts joined left).list.group? name) =
      if name ∈ left then (membersOf (s.list.group? name)).diff contacts
      else if name ∈ joined then (membersOf (s.list.group? name)).union contacts
      else membersOf (s.list.group? name) := by
  refine SortedSet.ext_mem fun x => ?_
  rw [mem_membersOf, regroup, standing?_sendToGroups fun _ => .inr rfl, h.standing?_joined]
  by_cases hleft : name ∈ left <;> by_cases hjoined : name ∈ joined <;>
    by_cases hx : x ∈ contacts <;>
    simp [hleft, hjoined, hx, SortedSet.mem_diff, SortedSet.mem_union, mem_membersOf,
      Standing.ofPlace?]

/-- A group of which clients hear while contacts join is one that got a member, unless these leave
again. -/
theorem changed_of_joining {name : String} {c c' : ContactChannel} {x : Handle}
    (hname : name ∈ joined) (hleft : name ∉ left) (hc : s₁.list.group? name = some c)
    (hx : x ∈ contacts) (hplace : c.membership.placeOf x ≠ .member)
    (hc' : (s₁.regroup contacts joined left).list.group? name = some c') :
    c'.membership.members ≠ membersOf (s.list.group? name) := by
  intro hsame
  have hall := h.members_regroup contacts left name
  rw [if_neg hleft, if_pos hname, hc', membersOf, Option.elim_some, hsame] at hall
  refine hplace ((placeOf_eq_member_iff hc x).mpr ?_)
  rw [h.members, hall, SortedSet.mem_union]
  exact .inr hx

/-- A group of which clients hear while contacts leave is one that lost a member, unless these had
only just joined. -/
theorem changed_of_leaving (hplain : s.PlainGroups) {name : String} {c c' : ContactChannel}
    {x : Handle} (hname : name ∈ left) (hjoined : name ∉ joined)
    (hc : (s₁.sendToGroups contacts .member joined).list.group? name = some c)
    (hx : x ∈ contacts) (hplace : c.membership.placeOf x ≠ .outside)
    (hc' : (s₁.regroup contacts joined left).list.group? name = some c') :
    c'.membership.members ≠ membersOf (s.list.group? name) := by
  intro hsame
  have hall := h.members_regroup contacts left name
  rw [if_pos hname, hc', membersOf, Option.elim_some, hsame] at hall
  refine hplace (((h.plainGroups_joined hplain).placeOf_eq_outside_iff hc x).mpr ?_)
  rw [h.members_joined hjoined, hall, SortedSet.mem_diff]
  exact fun hstays => hstays.2 hx

/-- Once the groups that are joined have channels that clients know, the contacts join and then
leave. -/
theorem regroups (hplain : s.PlainGroups) :
    s.Regroups contacts joined left (s₁.regroup contacts joined left) := by
  let s₂ := s₁.sendToGroups contacts .member joined
  obtain ⟨opening, hopening, hquiet, htold⟩ := h.told
  obtain ⟨joining, hjoining, hjoins⟩ := effects_sendToGroups s₁ contacts .member joined
  obtain ⟨leaving, hleaving, hleaves⟩ := effects_sendToGroups s₂ contacts .outside left
  have heffects : s.effectsUntil (s₁.regroup contacts joined left) =
      opening ++ joining ++ leaving :=
    effectsUntil_of_append (by
      rw [regroup, hleaving, hjoining, hopening]
      simp only [List.append_assoc])
  refine ⟨fun name hname => ?_, fun t => ?_, h.members_regroup contacts left, fun t ht => ?_,
    fun path e he => ?_⟩
  · obtain ⟨c, hc, hannounced, hknown⟩ := htold name hname
    obtain ⟨c', hc', -, hannounced', hdetails⟩ := group?_regroup contacts joined left hc
    refine ⟨c', hc', hannounced'.trans hannounced, hknown.imp_right ?_⟩
    rintro ⟨batch, hbatch, hmem⟩
    refine ⟨batch, ?_, hdetails ▸ hmem⟩
    rw [heffects, List.append_assoc]
    exact List.mem_append_left _ hbatch
  · rw [regroup, (moves_sendToGroups s₂).hasChannel, (moves_sendToGroups s₁).hasChannel, h.channels]
  · rw [regroup,
      membership?_sendToGroups_ne fun name hname => ht name (List.mem_append_right _ hname),
      membership?_sendToGroups_ne fun name hname => ht name (List.mem_append_left _ hname),
      h.others t fun name hname => ht name (List.mem_append_left _ hname)]
  · rw [heffects, List.mem_append, List.mem_append] at he
    obtain (hopened | hjoined) | hleft := he
    · exact absurd hopened (hquiet _ _)
    · obtain ⟨name, hname, c, signal, hc, heq, x, hx, hplace⟩ := hjoins _ hjoined
      cases heq
      obtain ⟨c', hc', hpath, -⟩ := group?_regroup contacts joined left hc
      refine ⟨name, c', hc', hpath, ?_⟩
      by_cases hleft : name ∈ left
      · exact .inr ⟨hname, hleft⟩
      · exact .inl (h.changed_of_joining hname hleft hc hx hplace hc')
    · obtain ⟨name, hname, c, signal, hc, heq, x, hx, hplace⟩ := hleaves _ hleft
      cases heq
      obtain ⟨c', hc', hpath, -⟩ := group?_sendToGroups contacts .outside left hc
      refine ⟨name, c', hc', hpath, ?_⟩
      by_cases hjoined : name ∈ joined
      · exact .inr ⟨hjoined, hname⟩
      · exact .inl (h.changed_of_leaving hplain hname hjoined hc hx hplace hc')

end Readies

/-- The law of a notice of joined and left groups. -/
theorem regroups_groupsChanged (hreceived : s.list.roster = .received)
    (hgroups : s.list.capabilities.groups.isSupported = true) (htidy : s.list.Tidy server)
    (contacts : SortedSet Handle) (added removed : List String)
    (hable : ∀ name ∈ added.filterMap server.normaliseGroup,
      s.list.HasChannel (.group name) ∨ s.tables.Gives .group name) :
    s.Regroups contacts (added.filterMap server.normaliseGroup)
      (removed.filterMap server.normaliseGroup)
      (s.groupsChanged server contacts added removed) := by
  rw [groupsChanged_eq (followsGroups_of_received hreceived hgroups) hreceived]
  exact (readies_tryOpenGroups hreceived hable).regroups (plainGroups_of_tidy htidy)

end Notice

/-! ## Clients -/

/-- From one scene to a later one, the members of a group became these, and nobody moved on any
other channel. -/
structure Restaffs (name : String) (members : SortedSet Handle) (s s' : ContactScene σ) :
    Prop where
  members : ∃ c, s'.list.group? name = some c ∧ c.membership.members = members
  others : ∀ t, t ≠ .group name → s'.list.membership? t = s.list.membership? t

section Clients

variable {name : String} {c : ContactChannel} {contacts : SortedSet Handle}

/-- A notice of one group is about that group, and no other. -/
theorem Regroups.restaffs {joined left : List String} (h : s.Regroups contacts joined left s₁)
    (hnames : ∀ n ∈ joined ++ left, n = name) (hgroup : s.list.HasChannel (.group name)) :
    s.Restaffs name (if name ∈ left then (membersOf (s.list.group? name)).diff contacts
      else if name ∈ joined then (membersOf (s.list.group? name)).union contacts
      else membersOf (s.list.group? name)) s₁ := by
  obtain ⟨c, hc⟩ := ContactList.hasChannel_iff.mp ((h.channels _).mpr (.inr hgroup))
  refine ⟨⟨c, hc, ?_⟩, fun t ht => h.others t fun n hn heq => ht (hnames n hn ▸ heq)⟩
  rw [← h.members, ContactList.group?, hc, membersOf, Option.elim_some]

/-- What follows a change of one group that the server carried out. -/
theorem restaffs_groupsChanged (htidy : s.list.Tidy server) (hreceived : s.list.roster = .received)
    (hc : s.list.group? name = some c) (hname : server.normaliseGroup name = some name)
    (contacts : SortedSet Handle) (added removed : List String) (hadded : ∀ n ∈ added, n = name)
    (hremoved : ∀ n ∈ removed, n = name) :
    s.Restaffs name (if name ∈ removed then c.membership.members.diff contacts
      else if name ∈ added then c.membership.members.union contacts else c.membership.members)
      (s.groupsChanged server contacts added removed) := by
  have hgroups : s.list.capabilities.groups.isSupported = true := by
    have := htidy.follows name c hc
    simp only [ContactList.followsGroups, Bool.and_eq_true] at this
    exact this.1
  have hspelled : ∀ {names : List String}, (∀ n ∈ names, n = name) →
      names.filterMap server.normaliseGroup = names := by
    intro names hnames
    induction names with
    | nil => rfl
    | cons n names ih =>
      rw [hnames n List.mem_cons_self, List.filterMap_cons, hname]
      exact congrArg _ (ih fun n hn => hnames n (List.mem_cons_of_mem _ hn))
  have hthere : s.list.HasChannel (.group name) := ContactList.hasChannel_iff.mpr ⟨c, hc⟩
  have hregroups := regroups_groupsChanged hreceived hgroups htidy contacts added removed
    fun n hn => by
      rw [hspelled hadded] at hn
      exact .inl (hadded n hn ▸ hthere)
  rw [hspelled hadded, hspelled hremoved] at hregroups
  have hrestaffs := hregroups.restaffs
    (fun n hn => (List.mem_append.mp hn).elim (hadded n) (hremoved n)) hthere
  rwa [hc, membersOf, Option.elim_some] at hrestaffs

/-- What a client's addition comes to that succeeds. -/
theorem addMembers_eq_ok {path : ObjectPath} {message : String}
    (h : s.addMembers server path contacts message = (.ok (), s₁)) :
    ∃ t c, s.list.roster = .received ∧ s.list.at? path = some (t, c) ∧
      ((∀ x ∈ contacts, x ∈ c.membership.members) ∧ s₁ = s ∨
        ∃ s₂, s.Consults s₂ ∧
          s₁ = s₂.followAddition server t (contacts.diff c.membership.members)) := by
  unfold addMembers at h
  split at h
  case h_1 => cases h
  case h_2 t outstanding hcheck =>
    obtain ⟨hreceived, c, hat, rfl⟩ := of_checkAddition hcheck
    refine ⟨t, c, hreceived, hat, ?_⟩
    split at h
    case isTrue hempty =>
      cases h
      refine .inl ⟨fun x hx => Decidable.byContradiction fun hout => ?_, rfl⟩
      exact SortedSet.isEmpty_iff.mp hempty x (SortedSet.mem_diff.mpr ⟨hx, hout⟩)
    case isFalse =>
      split at h
      case h_1 => cases h
      case h_2 s₂ hcall =>
        cases h
        exact .inr ⟨s₂, consults_of_call hcall, rfl⟩

/-- What a client's removal comes to that succeeds. -/
theorem removeMembers_eq_ok {path : ObjectPath}
    (h : s.removeMembers server path contacts = (.ok (), s₁)) :
    ∃ t c s₂, s.list.roster = .received ∧ s.list.at? path = some (t, c) ∧ s.Consults s₂ ∧
      s₁ = s₂.followRemoval server t contacts := by
  unfold removeMembers at h
  split at h
  case h_1 => cases h
  case h_2 t hcheck =>
    obtain ⟨hreceived, c, hat⟩ := of_checkRemoval hcheck
    split at h
    case h_1 => cases h
    case h_2 s₂ hcall =>
      cases h
      exact ⟨t, c, s₂, hreceived, hat, consults_of_call hcall, rfl⟩

variable (hidempotent : ∀ name canonical, server.normaliseGroup name = some canonical →
    server.normaliseGroup canonical = some canonical)
  (htidy : s.list.Tidy server) {path : ObjectPath}
  (hat : s.list.at? path = some (.group name, c))

include hidempotent htidy hat

theorem normaliseGroup_of_at? : server.normaliseGroup name = some name := by
  obtain ⟨given, hgiven⟩ := htidy.spelled name c (ContactList.of_at? hat).1
  exact hidempotent _ _ hgiven

/-- A client's addition to a group adds the contacts to that group. -/
theorem restaffs_addMembers {message : String}
    (hok : s.addMembers server path contacts message = (.ok (), s₁)) :
    s.Restaffs name (c.membership.members.union contacts) s₁ := by
  have hc := (ContactList.of_at? hat).1
  obtain ⟨t, c', hreceived, hat', hdone⟩ := addMembers_eq_ok hok
  cases hat.symm.trans hat'
  obtain ⟨hall, rfl⟩ | ⟨s₂, hcalled, rfl⟩ := hdone
  · refine ⟨⟨c, hc, SortedSet.ext_mem fun h => ?_⟩, fun _ _ => rfl⟩
    rw [SortedSet.mem_union]
    exact ⟨.inl, fun hor => hor.elim id (hall h)⟩
  · have hrestaffs := restaffs_groupsChanged (s := s₂) (hcalled.list ▸ htidy)
      (hcalled.list ▸ hreceived) (hcalled.list ▸ hc) (normaliseGroup_of_at? hidempotent htidy hat)
      (contacts.diff c.membership.members) [name] [] (by simp) (by simp)
    rw [if_neg List.not_mem_nil, if_pos List.mem_cons_self] at hrestaffs
    obtain ⟨⟨c', hc', hmembers⟩, hothers⟩ := hrestaffs
    refine ⟨⟨c', hc', hmembers.trans (SortedSet.ext_mem fun h => ?_)⟩, fun t ht => ?_⟩
    · rw [SortedSet.mem_union, SortedSet.mem_union, SortedSet.mem_diff]
      by_cases hmember : h ∈ c.membership.members <;> simp [hmember]
    · exact (hothers t ht).trans (by rw [hcalled.list])

/-- A client's removal from a group removes the contacts from that group. -/
theorem restaffs_removeMembers
    (hok : s.removeMembers server path contacts = (.ok (), s₁)) :
    s.Restaffs name (c.membership.members.diff contacts) s₁ := by
  have hc := (ContactList.of_at? hat).1
  obtain ⟨t, c', s₂, hreceived, hat', hcalled, rfl⟩ := removeMembers_eq_ok hok
  cases hat.symm.trans hat'
  have hrestaffs := restaffs_groupsChanged (s := s₂) (hcalled.list ▸ htidy)
    (hcalled.list ▸ hreceived) (hcalled.list ▸ hc) (normaliseGroup_of_at? hidempotent htidy hat)
    contacts [] [name] (by simp) (by simp)
  rw [if_pos List.mem_cons_self] at hrestaffs
  exact ⟨hrestaffs.members, fun t ht => (hrestaffs.others t ht).trans (by rw [hcalled.list])⟩

end Clients

end ContactScene

end Telepathy

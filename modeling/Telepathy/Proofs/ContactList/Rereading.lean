import Telepathy.Proofs.ContactList.Filling
import Telepathy.Proofs.ContactList.Renaming
import Telepathy.Proofs.Group.Operations
import Telepathy.Proofs.Handle.Counts
import Telepathy.Proofs.Handle.Return

set_option autoImplicit false

/-!
# Reading contacts again

What a notice of contacts leaves depends on the notice only through who is named in it: whoever
departed is nowhere, whoever changed is where the server's states have them, and nobody else is
touched. So the same notice once more finds everybody in place and does nothing at all, and a notice
may come in parts, in any order and with overlaps.
-/

namespace Telepathy

/-! ## Batches that restate what is there -/

namespace Membership

variable {m : Membership} {c : MembershipChange}

/-- Giving a handle the standing that it has changes nothing. -/
theorem settle_of_there {provenance : Provenance} {h : Handle} {p : Place}
    (hthere : m.standings.get? h = Standing.ofPlace? p provenance) :
    m.settle provenance h p = m := by
  unfold settle
  cases hs : Standing.ofPlace? p provenance with
  | some s =>
    have hsame : m.standings.insert h s = m.standings := by
      refine SortedMap.ext_get? fun h' => ?_
      rw [SortedMap.get?_insert]
      split
      · next heq => rw [heq, hthere, hs]
      · rfl
    simp only [hsame]
  | none =>
    have habsent : m.contains h = false := by simp [contains, SortedMap.contains, hthere, hs]
    simp [habsent]

/-- Sending a handle where it is, in the same way, takes the references that it gives back. -/
theorem send_of_there {provenance : Provenance} {h : Handle} {p : Place} {u : Progress}
    (hthere : u.membership.standings.get? h = Standing.ofPlace? p provenance) :
    ∃ held, u.send provenance h p =
      { u with retained := u.retained ++ held, released := u.released ++ held } := by
  have hplace : u.membership.placeOf h = p := by
    rw [placeOf, hthere, Standing.place_ofPlace?]
  have hleaves : ¬(p = .outside ∧ u.membership.contains h = true) := by
    rintro ⟨rfl, hcontains⟩
    rw [contains, SortedMap.contains, hthere] at hcontains
    cases hcontains
  refine ⟨(Standing.ofPlace? p provenance).elim [] (·.holds h), ?_⟩
  simp only [Progress.send, settle_of_there hthere, if_pos hplace, if_neg hleaves, hthere,
    List.append_nil]

/-- A batch of standings that are there already changes nothing, tells nobody and gives back what it
takes. -/
theorem change_of_there
    (hthere : ∀ h p, c.places.get? h = some p →
      m.standings.get? h = Standing.ofPlace? p c.provenance) :
    ∃ held, m.change c = ⟨m, none, held, held⟩ := by
  have hlist : ∀ (l : List (Handle × Place)) (u : Progress),
      (∀ e ∈ l, u.membership.standings.get? e.1 = Standing.ofPlace? e.2 c.provenance) →
        ∃ held, l.foldl (fun u e => u.send c.provenance e.1 e.2) u =
          { u with retained := u.retained ++ held, released := u.released ++ held } := by
    intro l
    induction l with
    | nil => exact fun u _ => ⟨[], by simp⟩
    | cons e l ih =>
      intro u hl
      obtain ⟨held, hsend⟩ := send_of_there (hl e List.mem_cons_self)
      obtain ⟨more, hrest⟩ := ih (u.send c.provenance e.1 e.2) fun e' he' => by
        rw [hsend]
        exact hl e' (List.mem_cons_of_mem _ he')
      refine ⟨held ++ more, ?_⟩
      rw [List.foldl_cons, hrest, hsend]
      simp only [List.append_assoc]
  obtain ⟨held, hall⟩ := hlist c.places.toList ⟨m, [], [], []⟩ fun e he =>
    hthere e.1 e.2 (SortedMap.get?_eq_some_iff.mpr he)
  refine ⟨held, ?_⟩
  simp only [change, hall, List.nil_append, announcement, List.isEmpty_nil, if_true]

end Membership

namespace HandleTables

/-- References on contacts that are taken and given back at once. -/
theorem exchangeContacts_self (ts : HandleTables) (held : List Handle) :
    ts.exchangeContacts held held = ts := by
  rw [exchangeContacts_eq]
  exact releaseAll_retainAll ts (.refl _)

end HandleTables

namespace ContactScene

variable {σ : Type} {server : ContactServer σ} {s s₁ : ContactScene σ}

/-- A batch of standings that are there already does nothing, on whatever channel. -/
theorem change_of_there {t : ContactTarget} {c : MembershipChange}
    (hthere : s.list.HasChannel t → ∀ h p, c.places.get? h = some p →
      s.list.standing? t h = Standing.ofPlace? p c.provenance) :
    s.change t c = s := by
  unfold change updateMembership
  split
  · rfl
  · next ch hch =>
    have hstanding : ∀ h, s.list.standing? t h = ch.membership.standings.get? h := by
      simp [ContactList.standing?, hch]
    obtain ⟨held, hchange⟩ := Membership.change_of_there (m := ch.membership) (c := c) fun h p hp =>
      (hstanding h).symm.trans (hthere (ContactList.hasChannel_iff.mpr ⟨ch, hch⟩) h p hp)
    have hput : s.list.put t ch = s.list := by
      have hsame : s.list.channels.insert t ch = s.list.channels := by
        refine SortedMap.ext_get? fun t' => ?_
        rw [SortedMap.get?_insert]
        split
        · next heq => rw [heq, hch]
        · rfl
      rw [ContactList.put, hsame]
    simp only [hchange, HandleTables.exchangeContacts_self, hput, Option.toList_none, List.map_nil,
      List.append_nil]

theorem sendAll_of_there {α : Type} {target : α → ContactTarget} {handles : α → SortedSet Handle}
    {p : Place} {provenance : α → Provenance} {l : List α}
    (hthere : ∀ a ∈ l, s.list.HasChannel (target a) → ∀ h ∈ handles a,
      s.list.standing? (target a) h = Standing.ofPlace? p (provenance a)) :
    s.sendAll target handles p provenance l = s := by
  induction l with
  | nil => rfl
  | cons a l ih =>
    have hfirst : s.change (target a) (.ofSet (handles a) p (provenance a)) = s :=
      change_of_there fun hchannel h q hq => by
        rw [MembershipChange.get?_ofSet] at hq
        split at hq
        · next hh =>
          cases hq
          exact hthere a List.mem_cons_self hchannel h hh
        · cases hq
    rw [sendAll, List.foldl_cons, hfirst]
    exact ih fun a' ha' => hthere a' (List.mem_cons_of_mem _ ha')

/-! ## The same notice again -/

/-- Everybody whom a notice names is on the three lists where the notice puts them. -/
def UpToDate (server : ContactServer σ) (s : ContactScene σ)
    (changed departed : SortedSet Handle) : Prop :=
  ∀ k : ListKind, k ≠ .deny → s.list.HasChannel (.list k) → ∀ h,
    (h ∈ departed → s.list.standing? (.list k) h = none) ∧
      (h ∈ changed → h ∉ departed →
        s.list.standing? (.list k) h = (server.states s.server h).standing? k)

variable {changed departed : SortedSet Handle}

theorem upToDate_applyContacts (s : ContactScene σ) (changed departed : SortedSet Handle) :
    (s.applyContacts server changed departed).UpToDate server changed departed := by
  intro k hk hlist h
  have hmoves : s.Moves (s.applyContacts server changed departed) :=
    s.moves_applyContacts changed departed
  rw [hmoves.quiet.server,
    standing?_applyContacts s changed departed hk ((hmoves.hasChannel _).mp hlist)]
  exact ⟨fun hd => if_pos hd, fun hh hd => by rw [if_neg hd, if_pos hh]⟩

/-- A batch of readings puts nobody elsewhere if everybody has been read. -/
theorem change_of_upToDate (h : s.UpToDate server changed departed) {k : ListKind} (hk : k ≠ .deny)
    {place? : Handle → Option Place}
    (hplace : ∀ x p, place? x = some p →
      Standing.ofPlace? p .unstated = (server.states s.server x).standing? k) :
    s.change (.list k) (.ofReadings departed (changed.diff departed) place? .unstated) = s := by
  refine change_of_there fun hlist x p hp => ?_
  rw [get?_ofContacts] at hp
  obtain ⟨hdeparted, hchanged⟩ := h k hk hlist x
  split at hp
  · next hd =>
    cases hp
    exact hdeparted hd
  · next hd =>
    split at hp
    · next hh => exact (hchanged hh hd).trans (hplace x p hp).symm
    · cases hp

theorem applyContacts_of_upToDate (h : s.UpToDate server changed departed) :
    s.applyContacts server changed departed = s := by
  have hsubscribe : s.change (.list .subscribe) (.ofReadings departed (changed.diff departed)
      (fun h => some (server.states s.server h).subscribe.subscribePlace) .unstated) = s := by
    refine change_of_upToDate h (by decide) fun x p hp => ?_
    cases hp
    simp only [PresenceStates.standing?]
    cases (server.states s.server x).subscribe <;> rfl
  have hpublish : s.change (.list .publish) (.ofReadings departed (changed.diff departed)
      (fun h => (server.states s.server h).publish.publishPlace?) .unstated) = s := by
    refine change_of_upToDate h (by decide) fun x p hp => ?_
    simp only [PresenceStates.standing?]
    cases hstate : (server.states s.server x).publish <;> rw [hstate] at hp <;> cases hp <;> rfl
  have hasking : s.sendAll (fun _ => .list .publish) (fun h => .ofList [h]) .localPending
      (fun h => ⟨none, .none, (server.states s.server h).publishRequest⟩)
      (s.asking changed departed server) = s := by
    refine sendAll_of_there fun a ha hlist x hx => ?_
    rw [SortedSet.mem_ofList, List.mem_singleton] at hx
    subst hx
    obtain ⟨⟨hh, hd⟩, hask⟩ := (s.mem_asking changed departed).mp ha
    rw [(h .publish (by decide) hlist x).2 hh hd, PresenceStates.standing?, hask]
    rfl
  have hstored : s.change (.list .stored) (.ofReadings departed (changed.diff departed)
      (fun _ => some .member) .unstated) = s := by
    refine change_of_upToDate h (by decide) fun x p hp => ?_
    cases hp
    rfl
  rw [applyContacts_eq, hsubscribe, hpublish, hasking, hstored]

/-- A notice of contacts that comes twice does nothing the second time. -/
theorem contactsChanged_contactsChanged (s : ContactScene σ) (changed departed : SortedSet Handle) :
    (s.contactsChanged server changed departed).contactsChanged server changed departed =
      s.contactsChanged server changed departed := by
  by_cases hreceived : s.list.roster = .received
  · have hread : s.contactsChanged server changed departed =
        s.applyContacts server changed departed := if_pos hreceived
    rw [hread, contactsChanged]
    split
    · exact applyContacts_of_upToDate (s.upToDate_applyContacts changed departed)
    · rfl
  · have hskip : s.contactsChanged server changed departed = s := if_neg hreceived
    rw [hskip, hskip]

/-! ## A notice in parts -/

/-- Notices of contacts, one after the other. -/
def contactsChangedAll (server : ContactServer σ) (s : ContactScene σ)
    (notices : List (SortedSet Handle × SortedSet Handle)) : ContactScene σ :=
  notices.foldl (fun s notice => s.contactsChanged server notice.1 notice.2) s

variable {notices : List (SortedSet Handle × SortedSet Handle)}

theorem moves_contactsChanged (s : ContactScene σ) (changed departed : SortedSet Handle) :
    s.Moves (s.contactsChanged server changed departed) := by
  unfold contactsChanged
  split
  · exact s.moves_applyContacts changed departed
  · exact .refl s

theorem moves_contactsChangedAll (s : ContactScene σ) :
    s.Moves (s.contactsChangedAll server notices) :=
  List.foldl_rel_of_step Moves.refl Moves.trans (fun s _ => s.moves_contactsChanged _ _) notices s

/-- Of a contact that no notice contradicts, all notices together say what any of them says. -/
theorem standing?_contactsChangedAll (hreceived : s.list.roster = .received) {k : ListKind}
    (hk : k ≠ .deny) (hlist : s.list.HasChannel (.list k)) {h : Handle}
    (hagree : ∀ n ∈ notices, ∀ n' ∈ notices, h ∈ n.1 → h ∉ n'.2) :
    (s.contactsChangedAll server notices).list.standing? (.list k) h =
      if ∃ n ∈ notices, h ∈ n.2 then none
      else if ∃ n ∈ notices, h ∈ n.1 then (server.states s.server h).standing? k
      else s.list.standing? (.list k) h := by
  induction notices generalizing s with
  | nil => simp [contactsChangedAll]
  | cons n rest ih =>
    have hmoves : s.Moves (s.contactsChanged server n.1 n.2) := s.moves_contactsChanged n.1 n.2
    have hroster : (s.contactsChanged server n.1 n.2).list.roster = .received :=
      (congrArg Prod.snd (settings_contactsChanged server s n.1 n.2)).trans hreceived
    have hfirst : s.contactsChanged server n.1 n.2 = s.applyContacts server n.1 n.2 :=
      if_pos hreceived
    have hrest := ih hroster ((hmoves.hasChannel _).mpr hlist) fun a ha b hb =>
      hagree a (List.mem_cons_of_mem _ ha) b (List.mem_cons_of_mem _ hb)
    rw [contactsChangedAll, List.foldl_cons, ← contactsChangedAll, hrest, hmoves.quiet.server,
      hfirst, standing?_applyContacts s n.1 n.2 hk hlist]
    simp only [List.mem_cons, exists_eq_or_imp]
    -- A later notice may only repeat what this one says.
    by_cases hlater : ∃ n ∈ rest, h ∈ n.2
    · simp [hlater]
    · by_cases hchanged : ∃ n ∈ rest, h ∈ n.1
      · obtain ⟨n', hn', hh⟩ := hchanged
        have hstays : h ∉ n.2 := hagree n' (List.mem_cons_of_mem _ hn') n List.mem_cons_self hh
        have hchanged : ∃ n ∈ rest, h ∈ n.1 := ⟨n', hn', hh⟩
        simp only [hlater, hchanged, hstays, or_self, or_true, if_true, if_false]
      · simp only [hlater, hchanged, or_false, if_false]

end ContactScene

/-- Who is on a list, and how: what clients can read of its members. -/
structure ListReading where
  members : SortedSet Handle
  localPending : SortedSet Handle
  localPendingInfo : List LocalPending
  remotePending : SortedSet Handle
deriving DecidableEq

/-- What can be read of the members of a list, if there is such a list. -/
def ContactList.reading? (l : ContactList) (k : ListKind) : Option ListReading :=
  (l.membership? (.list k)).map fun m =>
    ⟨m.members, m.localPending, m.localPendingInfo, m.remotePending⟩

/-- The members of a list can be read off their standings. -/
theorem ContactList.reading?_congr {l l' : ContactList} {k : ListKind}
    (hchannel : l.HasChannel (.list k) ↔ l'.HasChannel (.list k))
    (hstanding : l.HasChannel (.list k) → ∀ h,
      l.standing? (.list k) h = l'.standing? (.list k) h) : l.reading? k = l'.reading? k := by
  rw [hasChannel_iff, hasChannel_iff] at hchannel
  cases hc : l.channels.get? (.list k) with
  | none =>
    have hc' : l'.channels.get? (.list k) = none := by
      rw [hc] at hchannel
      simpa [Option.eq_none_iff_forall_ne_some] using hchannel
    simp only [reading?, membership?, hc, hc', Option.map_none]
  | some c =>
    obtain ⟨c', hc'⟩ := hchannel.mp ⟨c, hc⟩
    have hsame : c.membership.standings = c'.membership.standings := by
      refine SortedMap.ext_get? fun h => ?_
      have := hstanding (hasChannel_iff.mpr ⟨c, hc⟩) h
      simpa only [standing?, hc, hc', Option.bind_some] using this
    simp only [reading?, membership?, hc, hc', Option.map_some, Membership.members,
      Membership.localPending, Membership.localPendingInfo, Membership.remotePending,
      Membership.inPlace, hsame]

namespace ContactScene

variable {σ : Type} {s : ContactScene σ}

/-- Notices that name the contacts of one notice, each of them at least once, and nobody else. -/
structure Splits (notices : List (SortedSet Handle × SortedSet Handle))
    (changed departed : SortedSet Handle) : Prop where
  changed : ∀ h, h ∈ changed ↔ ∃ n ∈ notices, h ∈ n.1
  departed : ∀ h, h ∈ departed ↔ ∃ n ∈ notices, h ∈ n.2

/-- A notice of contacts does nothing when it comes again, and those that it is split into, in
whatever order they come, leave on each list the members that it leaves. -/
theorem contactsChanged_idem_and_splits (server : ContactServer σ)
    (hreceived : s.list.roster = .received) (changed departed : SortedSet Handle) :
    let s₁ := s.contactsChanged server changed departed
    s₁.contactsChanged server changed departed = s₁ ∧
      ((∀ h ∈ changed, h ∉ departed) → ∀ notices, Splits notices changed departed →
        ∀ k, k ≠ .deny →
          (s.contactsChangedAll server notices).list.reading? k = s₁.list.reading? k) := by
  intro s₁
  refine ⟨contactsChanged_contactsChanged s changed departed, ?_⟩
  intro hdisjoint notices hsplits k hk
  have hmoves : s.Moves (s.contactsChangedAll server notices) := s.moves_contactsChangedAll
  have hmoves₁ : s.Moves s₁ := s.moves_contactsChanged changed departed
  refine ContactList.reading?_congr ((hmoves.hasChannel _).trans (hmoves₁.hasChannel _).symm)
    fun hlist h => ?_
  have hlist := (hmoves.hasChannel _).mp hlist
  have hone : s₁ = s.applyContacts server changed departed := if_pos hreceived
  rw [hone, standing?_applyContacts s changed departed hk hlist,
    standing?_contactsChangedAll hreceived hk hlist fun n hn n' hn' hh hh' =>
      hdisjoint h ((hsplits.changed h).mpr ⟨n, hn, hh⟩) ((hsplits.departed h).mpr ⟨n', hn', hh'⟩)]
  simp only [hsplits.changed h, hsplits.departed h]

/-- The contact list of a user whom Alice asks to be told of his presence, before the notice of
it. -/
def courted : ContactScene MemoryRoster :=
  let s := befriended.rosterReceived emulating
  { s with
    server := { s.server with entries := s.server.entries.insert .first ⟨.yes, .ask, "hello"⟩ } }

/-- Alice waits for the user with her message, whether she and the contact who departed are named in
one notice or in three. -/
theorem courted_waits :
    let alice := Handle.first
    let bob := alice.next
    let s := courted.contactsChangedAll emulating
      [(.empty, .ofList [bob]), (.ofList [alice], .ofList [bob]), (.ofList [alice], .empty)]
    s.list.reading? .publish =
        some ⟨.empty, .ofList [alice], [⟨alice, ⟨none, .none, "hello"⟩⟩], .empty⟩ ∧
      let s₁ := courted.contactsChanged emulating (.ofList [alice]) (.ofList [bob])
      s.list.reading? .publish = s₁.list.reading? .publish ∧
        s₁.contactsChanged emulating (.ofList [alice]) (.ofList [bob]) = s₁ := by
  intro alice bob s
  have hreceived : courted.list.roster = .received := by decide +kernel
  obtain ⟨hagain, hsplits⟩ := contactsChanged_idem_and_splits emulating hreceived
    (.ofList [alice]) (.ofList [bob])
  refine ⟨by decide +kernel, hsplits (by decide) _ ⟨fun h => ?_, fun h => ?_⟩ .publish (by decide),
    hagain⟩
  · simp [SortedSet.mem_ofList]
  · simp [SortedSet.mem_ofList]

end ContactScene

end Telepathy

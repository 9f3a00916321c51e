import Telepathy.ContactList.MemoryServer
import Telepathy.Proofs.ContactList.Acts
import Telepathy.Proofs.ContactList.Deeds
import Telepathy.Proofs.ContactList.Filling
import Telepathy.Proofs.Handle.Counts

set_option autoImplicit false

/-!
# The references of a contact list

A contact list counts in the handle tables every reference that its channels hold, on their targets
and on the contacts in their groups, and those that its server holds. The books are right if the
tables count just these references and those of others. Every deed keeps them right, provided that
the server takes references only on contacts that it knows or is told of: a reference is taken on a
handle in use, and nobody gives back more than was held.

While a channel is out of the list but not closed yet, its references are counted among those of
others.
-/

namespace Telepathy

/-- A server that holds the contacts it speaks of, and takes no reference on others than those it
holds already or is called about. -/
structure ContactServer.Careful {σ : Type} (server : ContactServer σ) : Prop where
  contacts : ∀ data, ∀ h ∈ server.contacts data, h ∈ server.holds data
  blocked : ∀ data, ∀ h ∈ server.blocked data, h ∈ server.holds data
  mutate : ∀ name data m, ∀ h ∈ server.holds (server.mutate name data m).2,
    h ∈ server.holds data ∨ h ∈ m.contacts

/-- The references that a channel holds, on its target and for its group. -/
def ContactChannel.references (t : ContactTarget) (c : ContactChannel) : List Reference :=
  ⟨t.entity, c.handle⟩ :: c.membership.holds.map (Reference.mk .contact)

namespace ContactList

/-- The references that the channels of a contact list hold. -/
def references (l : ContactList) : List Reference :=
  l.channels.toList.flatMap fun e => e.2.references e.1

variable {l : ContactList} {t : ContactTarget} {c c' : ContactChannel}

theorem references_put (l : ContactList) (t : ContactTarget) (c : ContactChannel) :
    (l.put t c).references.Perm (c.references t ++ (l.remove t).references) := by
  have hput := (SortedMap.toList_insert_perm l.channels t c).flatMap_right
    fun e => e.2.references e.1
  rwa [List.flatMap_cons] at hput

theorem references_remove (hc : l.channels.get? t = some c) :
    l.references.Perm (c.references t ++ (l.remove t).references) := by
  have herase := (SortedMap.toList_perm_erase hc).flatMap_right fun e => e.2.references e.1
  rwa [List.flatMap_cons] at herase

theorem references_put_new (habsent : ¬ l.HasChannel t) (c : ContactChannel) :
    (l.put t c).references.Perm (c.references t ++ l.references) := by
  have hput := l.references_put t c
  rwa [remove, SortedMap.erase_of_absent (Option.not_isSome_iff_eq_none.mp habsent)] at hput

/-- A channel is put in place of one that holds the same. -/
theorem references_put_same (hc : l.channels.get? t = some c)
    (hsame : c'.references t = c.references t) :
    l.references.Perm (l.put t c').references := by
  have hput := l.references_put t c'
  rw [hsame] at hput
  exact (references_remove hc).trans hput.symm

/-- All channels are replaced by such that hold the same. -/
theorem references_mapValues {l' : ContactList}
    (f : ContactTarget → ContactChannel → ContactChannel)
    (hl' : l'.channels = l.channels.mapValues f)
    (hf : ∀ t c, (f t c).references t = c.references t) : l.references = l'.references := by
  simp only [references, hl', SortedMap.mapValues, List.flatMap_map, hf]

end ContactList

namespace ContactScene

variable {σ : Type} {server : ContactServer σ} {P : ContactTarget → Prop} {X : Handle → Prop}
  {M : String → String → Prop} {s s₁ : ContactScene σ} {origin : HandleTables}
  {others : List Reference}

/-! ## The books -/

/-- The tables count what the contact list, its server and others hold, and whatever was in use in
the tables `origin` is in use. -/
structure Books (server : ContactServer σ) (origin : HandleTables) (others : List Reference)
    (s : ContactScene σ) : Prop where
  counts : s.tables.Counts
    ((server.holds s.server).map (Reference.mk .contact) ++ s.list.references ++ others)
  keeps : origin.Keeps s.tables

namespace Books

theorem refresh (h : s.Books server origin others) : s.Books server s.tables others :=
  ⟨h.counts, .refl _⟩

theorem since {others' : List Reference} (h : s.Books server origin others')
    (h' : s₁.Books server s.tables others) : s₁.Books server origin others :=
  ⟨h'.counts, h.keeps.trans h'.keeps⟩

theorem inherit (h : s.Books server origin others) (htables : s₁.tables = s.tables)
    (hserver : s₁.server = s.server) (hlist : s.list.references.Perm s₁.list.references) :
    s₁.Books server origin others := by
  refine ⟨?_, htables ▸ h.keeps⟩
  rw [htables, hserver]
  exact h.counts.of_perm ((hlist.append_left _).append_right _)

/-- What a server holds is in use. -/
theorem isValid_of_server (h : s.Books server origin others) {x : Handle}
    (hx : x ∈ server.holds s.server) : s.tables.isValid ⟨.contact, x⟩ = true :=
  h.counts.isValid (List.mem_append_left _ (List.mem_append_left _ (List.mem_map_of_mem hx)))

/-- Whoever is in a group is in use. -/
theorem isValid_of_group (h : s.Books server origin others) {t : ContactTarget} {c : ContactChannel}
    (hc : s.list.channels.get? t = some c) {x : Handle} (hx : x ∈ c.membership.holds) :
    s.tables.isValid ⟨.contact, x⟩ = true := by
  refine h.counts.isValid (List.mem_append_left _ (List.mem_append_right _ ?_))
  exact List.mem_flatMap.mpr ⟨(t, c), SortedMap.get?_eq_some_iff.mp hc,
    .tail _ (List.mem_map_of_mem hx)⟩

/-! ### Small deeds -/

theorem call (hserver : server.Careful) (h : s.Books server origin others) {m : Mutation}
    (hm : ∀ x ∈ m.contacts, origin.isValid ⟨.contact, x⟩ = true) :
    (s.call server m).2.Books server origin others := by
  refine ⟨h.counts.exchangeContacts (fun x hx => ?_) ?_,
    h.keeps.trans (s.tables.keeps_exchangeContacts _ _)⟩
  · rcases hserver.mutate _ _ _ x hx with hold | hnamed
    · exact h.isValid_of_server hold
    · exact h.keeps _ (hm x hnamed)
  · refine List.perm_iff_count.mpr fun x => ?_
    simp only [ContactScene.call, List.count_append]
    omega

theorem change (h : s.Books server origin others) (t : ContactTarget) {c : MembershipChange}
    (hc : c.Within fun x => origin.isValid ⟨.contact, x⟩ = true) :
    (s.change t c).Books server origin others := by
  have hacts : Acts server anyChannel s (s.change t c) := s.acts_change t c
  refine ⟨?_, h.keeps.trans hacts.sustains.keeps⟩
  unfold ContactScene.change updateMembership
  split
  · exact h.counts
  case h_2 ch hch =>
    refine h.counts.exchangeContacts
      (fun x hx => h.keeps _ (ch.membership.retained_change c hc x hx))
      (List.perm_iff_count.mpr fun x => ?_)
    have hold := (ContactList.references_remove hch).count_eq x
    have hnew := (s.list.references_put t
      { ch with membership := (ch.membership.change c).membership }).count_eq x
    have hbatch := ((ch.membership.holds_change c).map (Reference.mk .contact)).count_eq x
    simp only [ContactChannel.references, List.map_append, List.count_append, List.cons_append,
      List.count_cons] at hold hnew hbatch ⊢
    omega

theorem opening (h : s.Books server origin others) {t : ContactTarget} {requested : Bool}
    (hopen : s.openChannel t requested = .ok s₁) : s₁.Books server origin others := by
  have hact : Act server anyChannel s s₁ := .opening hopen
  refine ⟨?_, h.keeps.trans hact.sustains.keeps⟩
  rcases openChannel_eq_ok hopen with
    ⟨rfl, -⟩ | ⟨r, c, hensure, -, rfl, habsent, hhandle, -, hunheld⟩
  · exact h.counts
  · have hissues := HandleTables.issues_of_ensure hensure
    refine ((h.counts.issues hissues).retain (hissues.isValid h.counts.sound)).of_perm
      (List.perm_iff_count.mpr fun x => ?_)
    have hnew := (ContactList.references_put_new habsent c).count_eq x
    simp only [ContactChannel.references, hunheld, hhandle, List.map_nil, List.count_append,
      List.count_cons, List.count_nil] at hnew ⊢
    omega

theorem fail (h : s.Books server origin others) (tokens : List RequestToken) (e : Error) :
    (s.fail tokens e).Books server origin others :=
  h.inherit rfl rfl (.refl _)

theorem announcePending (h : s.Books server origin others) :
    s.announcePending.Books server origin others := by
  unfold ContactScene.announcePending
  dsimp only
  split
  · exact h
  · refine h.inherit rfl rfl (.of_eq (ContactList.references_mapValues
      (fun _ c => if c.announced then c else c.announce) rfl fun t c => ?_))
    split <;> rfl

theorem announceFor (h : s.Books server origin others) (t : ContactTarget) (token : RequestToken) :
    (s.announceFor t token).Books server origin others := by
  unfold ContactScene.announceFor
  split
  · exact h
  case h_2 c hc => exact h.inherit rfl rfl (ContactList.references_put_same hc rfl)

theorem satisfy (h : s.Books server origin others) (t : ContactTarget) (token : RequestToken) :
    (s.satisfy t token).Books server origin others := by
  unfold ContactScene.satisfy
  split
  · exact h
  case h_2 c hc =>
    split
    · exact h.inherit rfl rfl (.refl _)
    · exact h.inherit rfl rfl (ContactList.references_put_same hc rfl)

/-! ### Channels go -/

theorem detach (h : s.Books server origin others) {t : ContactTarget} {c : ContactChannel}
    (hc : s.list.channels.get? t = some c) :
    (s.detach t).Books server origin (c.references t ++ others) := by
  refine ⟨h.counts.of_perm (List.perm_iff_count.mpr fun x => ?_), h.keeps⟩
  have hold := (ContactList.references_remove hc).count_eq x
  simp only [ContactScene.detach, List.count_append] at hold ⊢
  omega

/-- To give back what a channel holds takes it from those who had it in hand. -/
theorem releaseChannel {t : ContactTarget} {c : ContactChannel}
    (h : s.Books server origin (c.references t ++ others)) :
    (s.releaseChannel t c).Books server origin others := by
  have hperm : ∀ kept : List Reference, (kept ++ (c.references t ++ others)).Perm
      (⟨t.entity, c.handle⟩ :: (c.membership.holds.map (Reference.mk .contact) ++
        (kept ++ others))) := by
    refine fun kept => List.perm_iff_count.mpr fun x => ?_
    simp only [ContactChannel.references, List.count_append, List.count_cons]
    omega
  exact ⟨(h.counts.of_perm (hperm _)).release.exchangeContacts (by simp) (.refl _),
    (h.keeps.trans (s.tables.keeps_release _)).trans (HandleTables.keeps_exchangeContacts _ _ _)⟩

theorem close {t : ContactTarget} {c : ContactChannel}
    (h : s.Books server origin (c.references t ++ others)) (e : Error) :
    (s.close t c e).Books server origin others := by
  have hreleased := (h.fail c.queued e).releaseChannel
  unfold ContactScene.close
  dsimp only
  split
  · exact hreleased.inherit rfl rfl (.refl _)
  · exact hreleased

theorem dismiss {t : ContactTarget} {c : ContactChannel}
    (h : s.Books server origin (c.references t ++ others)) (reason : ChangeReason) (e : Error) :
    (s.dismiss t c reason e).Books server origin others := by
  unfold ContactScene.dismiss
  refine Books.close (c := { c with membership := (c.membership.removeAll reason).membership })
    ⟨h.counts.exchangeContacts (fun x hx => ?_) (List.perm_iff_count.mpr fun x => ?_),
      h.keeps.trans (s.tables.keeps_exchangeContacts _ _)⟩ e
  · have heveryone : ∀ x ∈ c.membership.everyone, x ∈ c.membership.holds := by
      intro x hx
      obtain ⟨st, hst⟩ := SortedMap.mem_keySet.mp hx
      exact Membership.mem_holds_of_standing hst
    refine h.counts.isValid (List.mem_append_right _ (List.mem_append_left _ (.tail _ ?_)))
    exact List.mem_map_of_mem (c.membership.retained_change _
      (MembershipChange.within_ofSet _ heveryone rfl) x hx)
  · have hbatch := ((c.membership.holds_change (.ofSet c.membership.everyone .outside
      ⟨none, reason, ""⟩)).map (Reference.mk .contact)).count_eq x
    simp only [ContactChannel.references, Membership.removeAll, List.map_append, List.count_append,
      List.count_cons] at hbatch ⊢
    omega

/-! ### Deeds -/

theorem foldl {α : Type} {f : ContactScene σ → α → ContactScene σ} {l : List α}
    (hf : ∀ s, ∀ a ∈ l, s.Books server origin others → (f s a).Books server origin others)
    (h : s.Books server origin others) : (l.foldl f s).Books server origin others := by
  induction l generalizing s with
  | nil => exact h
  | cons a l ih =>
    exact ih (fun s b hb => hf s b (.tail _ hb)) (hf s a List.mem_cons_self h)

theorem tryOpen (h : s.Books server origin others) (t : ContactTarget) :
    (s.tryOpen t).Books server origin others := by
  unfold ContactScene.tryOpen
  split
  case h_1 hopen => exact h.opening hopen
  case h_2 => exact h

theorem tryOpenGroups (h : s.Books server origin others) (names : List String) :
    (s.tryOpenGroups names).Books server origin others :=
  h.foldl fun _ name _ h => h.tryOpen (.group name)

theorem openLists (h : s.Books server origin others) : s.openLists.Books server origin others :=
  h.foldl fun _ k _ h => h.tryOpen (.list k)

theorem closeGroup (h : s.Books server origin others) (name : String) :
    (s.closeGroup name).Books server origin others := by
  unfold ContactScene.closeGroup
  split
  · exact h
  case h_2 c hc => exact (h.detach hc).dismiss _ _

theorem abandonGroup (h : s.Books server origin others) (e : Error) (name : String) :
    (s.abandonGroup e name).Books server origin others := by
  unfold ContactScene.abandonGroup
  split
  · exact h
  case h_2 c hc => exact (h.detach hc).close e

/-- The members of a group that is moved are held for the old channel until that is closed. -/
theorem moveGroup (h : s.Books server origin others) (old target : String) :
    (s.moveGroup old target).Books server origin others := by
  unfold ContactScene.moveGroup
  split
  · exact h
  case h_2 c hc =>
    have hopened := ((h.detach hc).tryOpen (.group target)).announcePending
    refine hopened.since ((hopened.refresh.change (.group target)
      (MembershipChange.within_ofSet _ (fun x hx => ?_) rfl)).dismiss _ _)
    obtain ⟨st, hst, -⟩ := SortedMap.mem_keysWhere.mp hx
    exact hopened.counts.isValid (List.mem_append_right _ (List.mem_append_left _ (.tail _
      (List.mem_map_of_mem (Membership.mem_holds_of_standing hst)))))

theorem settleRequestedGroups (hserver : server.Careful) (h : s.Books server origin others)
    (known : List String) : (s.settleRequestedGroups server known).Books server origin others := by
  have hclose : ∀ (e : Error) (names : List String) {s : ContactScene σ},
      s.Books server origin others →
        (names.foldl (ContactScene.abandonGroup e) s).Books server origin others :=
    fun e names {_} h => h.foldl fun _ name _ h => h.abandonGroup e name
  unfold ContactScene.settleRequestedGroups
  split
  · exact h
  case h_2 first rest _ =>
    have hcalled : (s.call server (.createGroups (first :: rest))).2.Books server origin others :=
      h.call hserver (by simp [Mutation.contacts])
    by_cases heditable : s.list.capabilities.groups.isEditable = true
    · simp only [if_pos heditable]
      split
      · exact hcalled
      · exact hclose _ _ hcalled
    · simp only [if_neg heditable]
      exact hclose _ _ h

theorem loadGroups (hserver : server.Careful) (h : s.Books server origin others) :
    (s.loadGroups server).Books server origin others :=
  (h.tryOpenGroups _).settleRequestedGroups hserver _

/-! ### The roster -/

theorem applyContacts (h : s.Books server origin others) {changed departed : SortedSet Handle}
    (hchanged : ∀ x ∈ changed, origin.isValid ⟨.contact, x⟩ = true)
    (hdeparted : ∀ x ∈ departed, origin.isValid ⟨.contact, x⟩ = true) :
    (s.applyContacts server changed departed).Books server origin others := by
  have hpresent : ∀ x ∈ changed.diff departed, origin.isValid ⟨.contact, x⟩ = true := fun x hx =>
    hchanged x (SortedSet.mem_diff.mp hx).1
  have hread : ∀ place?, (MembershipChange.ofReadings departed (changed.diff departed) place?
      .unstated).Within fun x => origin.isValid ⟨.contact, x⟩ = true := fun place? =>
    MembershipChange.within_ofReadings place? hdeparted hpresent rfl
  refine (Books.foldl (fun s x hx h => h.change _ ?_) ((h.change _ (hread _)).change _
    (hread _))).change _ (hread _)
  refine MembershipChange.within_ofSet _ (fun y hy => ?_) rfl
  obtain rfl := List.mem_singleton.mp (SortedSet.mem_ofList.mp hy)
  exact hpresent y (SortedSet.mem_def.mpr (List.mem_filter.mp hx).1)

theorem loadBlocked (hserver : server.Careful) (h : s.Books server origin others) :
    (s.loadBlocked server).Books server origin others := by
  unfold ContactScene.loadBlocked
  split
  · refine h.since (h.refresh.change _ (MembershipChange.within_ofSet _ (fun x hx => ?_) rfl))
    exact h.isValid_of_server (hserver.blocked _ x hx)
  · exact h

theorem loadGroupMembers (h : s.Books server origin others) {contacts : SortedSet Handle}
    (hcontacts : ∀ x ∈ contacts, origin.isValid ⟨.contact, x⟩ = true) :
    (s.loadGroupMembers server contacts).Books server origin others := by
  unfold ContactScene.loadGroupMembers
  split
  · refine (h.tryOpenGroups _).foldl fun s e he h =>
      h.change _ (MembershipChange.within_ofSet _ (fun x hx => ?_) rfl)
    have hmember := (mem_groupMembers _ _ e.1 x).mp ⟨e.2, SortedMap.get?_eq_some_iff.mpr he, hx⟩
    exact hcontacts x hmember.1
  · exact h

theorem fillChannels (hserver : server.Careful) (h : s.Books server origin others)
    {contacts : SortedSet Handle}
    (hcontacts : ∀ x ∈ contacts, origin.isValid ⟨.contact, x⟩ = true) :
    (s.fillChannels server contacts).Books server origin others :=
  ((h.applyContacts hcontacts (by simp)).loadBlocked hserver).loadGroupMembers hcontacts

theorem loadRoster (hserver : server.Careful) (h : s.Books server origin others) :
    (s.loadRoster server).Books server origin others := by
  have harrived : ContactScene.Books server origin others
      { s with list := { s.list with roster := .received } } := h.inherit rfl rfl (.refl _)
  have hloaded := harrived.openLists.loadGroups hserver
  exact (hloaded.since (hloaded.refresh.fillChannels hserver fun x hx =>
    hloaded.isValid_of_server (hserver.contacts _ x hx))).announcePending

theorem rosterFailed (h : s.Books server origin others) (e : Error) :
    (s.rosterFailed e).Books server origin others := by
  unfold ContactScene.rosterFailed
  split
  · refine Books.fail ?_ _ e
    exact h.inherit rfl rfl (.of_eq (ContactList.references_mapValues
      (fun _ c => { c with queued := [] }) rfl fun _ _ => rfl))
  · exact h

/-- When the connection goes away, every channel gives back what it holds. -/
theorem disconnect (h : s.Books server origin others) :
    s.disconnect.Books server origin others := by
  have hrelease : ∀ (l : List (ContactTarget × ContactChannel)) {s : ContactScene σ},
      s.Books server origin (l.flatMap (fun e => e.2.references e.1) ++ others) →
        (l.foldl (fun s e =>
          let s := s.releaseChannel e.1 e.2
          if e.2.announced then s.emit (.signal e.2.path .closed) else s) s).Books server origin
            others := by
    intro l
    induction l with
    | nil => exact fun h => h
    | cons e l ih =>
      intro s h
      rw [List.flatMap_cons, List.append_assoc] at h
      refine ih ?_
      dsimp only
      split
      · exact h.releaseChannel.inherit rfl rfl (.refl _)
      · exact h.releaseChannel
  refine hrelease s.list.channels.toList ⟨h.counts.of_perm (List.perm_iff_count.mpr fun x => ?_),
    h.keeps⟩
  have hempty : (SortedMap.empty : SortedMap ContactTarget ContactChannel).toList = [] := rfl
  simp only [ContactList.references, hempty, List.flatMap_nil, List.count_append, List.count_nil]
  omega

end Books

/-! ## Whole operations -/

/-- Every deed keeps the books right. -/
theorem Deed.books (hserver : server.Careful)
    (hdeed : Deed server (fun x => origin.isValid ⟨.contact, x⟩ = true) M s s₁)
    (h : s.Books server origin others) : s₁.Books server origin others := by
  cases hdeed with
  | call hm => exact h.call hserver hm
  | change t hc => exact h.change t hc
  | fail tokens e => exact h.fail tokens e
  | create hfollows names => exact (h.tryOpenGroups names).announcePending
  | closeGroup name => exact h.closeGroup name
  | moveGroup hM => exact h.moveGroup _ _
  | satisfy hc token => exact h.satisfy _ token
  | serve hcheck hopen => exact (h.opening hopen).satisfy _ _
  | await hcheck hnone hroster hopen => exact (h.opening hopen).satisfy _ _
  | grant hnone hroster hopen token => exact (h.opening hopen).announceFor _ token
  | load hroster => exact h.loadRoster hserver
  | lament hroster e => exact h.rosterFailed e

/-- An operation on contacts in use keeps the books right. -/
theorem books_perform (hserver : server.Careful) {op : ContactOperation (SortedSet Handle)}
    (hnamed : ∀ x ∈ op.contacts, s.tables.isValid ⟨.contact, x⟩ = true)
    (h : s.Books server s.tables others) :
    (s.perform server op).2.Books server s.tables others := by
  have hwithin : s.Within op fun x => s.tables.isValid ⟨.contact, x⟩ = true := by
    refine ⟨hnamed, fun t c hc x hx => ?_, fun x hx => hx⟩
    obtain ⟨st, hst, -⟩ := SortedMap.mem_keysWhere.mp hx
    exact h.isValid_of_group hc (Membership.mem_holds_of_standing hst)
  exact (deeds_perform (M := fun _ _ => True) s hwithin fun _ _ _ => trivial).keeps
    (I := Books server s.tables others) (Deed.books hserver) h

theorem books_offer (hserver : server.Careful) (r : ChannelRequest)
    (h : s.Books server origin others) : (s.offer server r).2.Books server origin others :=
  (deeds_offer (M := fun _ _ => True) s r).keeps (I := Books server origin others)
    (Deed.books hserver) h

end ContactScene

/-! ## The server in memory -/

namespace MemoryRoster

variable {r : MemoryRoster} {h : Handle}

theorem mem_keys_adjust {contacts : SortedSet Handle} {f : PresenceStates → PresenceStates}
    (hh : h ∈ (r.adjust contacts f).entries.keys) : h ∈ r.entries.keys ∨ h ∈ contacts := by
  have hfold : ∀ (l : List Handle) {r : MemoryRoster},
      h ∈ (l.foldl (fun r h => { r with entries := r.entries.insert h (f (r.statesOf h)) })
        r).entries.keys → h ∈ r.entries.keys ∨ h ∈ l := by
    intro l
    induction l with
    | nil => exact fun hh => .inl hh
    | cons x l ih =>
      intro r hh
      rcases ih hh with hh | hh
      · rw [SortedMap.mem_keys, SortedMap.contains, SortedMap.get?_insert] at hh
        by_cases hx : h = x
        · exact .inr (hx ▸ List.mem_cons_self)
        · rw [if_neg hx] at hh
          exact .inl (SortedMap.mem_keys.mpr hh)
      · exact .inr (.tail _ hh)
  exact hfold contacts.toList hh

theorem blocked_adjust (r : MemoryRoster) (contacts : SortedSet Handle)
    (f : PresenceStates → PresenceStates) : (r.adjust contacts f).blocked = r.blocked := by
  unfold adjust
  generalize contacts.toList = l
  induction l generalizing r with
  | nil => rfl
  | cons x l ih => exact ih _

theorem createGroups_eq (r : MemoryRoster) (names : List String) :
    names.foldl createGroup r = { r with groups := (names.foldl createGroup r).groups } := by
  induction names generalizing r with
  | nil => rfl
  | cons name names ih =>
    rw [List.foldl_cons, ih]
    rfl

/-- A call makes nobody known whom it does not name. -/
theorem mem_of_carryOut {m : Mutation}
    (hh : h ∈ (r.carryOut m).entries.keys ++ (r.carryOut m).blocked.toList) :
    h ∈ r.entries.keys ++ r.blocked.toList ∨ h ∈ m.contacts := by
  have hadjusted : ∀ {contacts : SortedSet Handle} {f : PresenceStates → PresenceStates},
      h ∈ (r.adjust contacts f).entries.keys ++ (r.adjust contacts f).blocked.toList →
        h ∈ r.entries.keys ++ r.blocked.toList ∨ h ∈ contacts.toList := by
    intro contacts f hh
    rw [blocked_adjust] at hh
    rcases List.mem_append.mp hh with hh | hh
    · exact (mem_keys_adjust hh).imp_left (List.mem_append_left _)
    · exact .inl (List.mem_append_right _ hh)
  have hblocked : ∀ {blocked : SortedSet Handle} {contacts : List Handle},
      (h ∈ blocked → h ∈ r.blocked ∨ h ∈ contacts) →
        h ∈ r.entries.keys ++ blocked.toList → h ∈ r.entries.keys ++ r.blocked.toList ∨
          h ∈ contacts := by
    intro blocked contacts hsub hh
    rcases List.mem_append.mp hh with hh | hh
    · exact .inl (List.mem_append_left _ hh)
    · exact (hsub hh).imp_left (List.mem_append_right _)
  cases m with
  | requestSubscription contacts message => exact hadjusted hh
  | authorizePublication contacts => exact hadjusted hh
  | storeContacts contacts => exact hadjusted hh
  | unsubscribe contacts => exact hadjusted hh
  | unpublish contacts => exact hadjusted hh
  | removeContacts contacts =>
    refine .inl ?_
    rcases List.mem_append.mp hh with hh | hh
    · refine List.mem_append_left _ (SortedMap.mem_keys.mpr ?_)
      obtain ⟨v, hv⟩ := Option.isSome_iff_exists.mp (SortedMap.mem_keys.mp hh)
      rw [carryOut, SortedMap.get?_filter] at hv
      exact Option.isSome_iff_exists.mpr ⟨v, (Option.filter_eq_some_iff.mp hv).1⟩
    · exact List.mem_append_right _ hh
  | blockContacts contacts => exact hblocked SortedSet.mem_union.mp hh
  | unblockContacts contacts => exact hblocked (fun h => .inl (SortedSet.mem_diff.mp h).1) hh
  | createGroups names =>
    simp only [carryOut] at hh
    rw [createGroups_eq] at hh
    exact .inl hh
  | _ => exact .inl hh

/-- The server in memory holds all that it knows, and comes to know only whom it is called about. -/
theorem careful_server (capabilities : Capabilities) (lacking : List ServerFeature)
    (caseless : Bool) : (server capabilities lacking caseless).Careful where
  contacts r h hh := by
    obtain ⟨v, hv⟩ := SortedMap.mem_keySet.mp hh
    exact List.mem_append_left _ (SortedMap.mem_keys.mpr (by simp [SortedMap.contains, hv]))
  blocked r h hh := by
    simp only [server] at hh
    split at hh
    · exact absurd hh (SortedSet.not_mem_empty h)
    · exact List.mem_append_right _ hh
  mutate name r m h hh := by
    simp only [server, react] at hh
    split at hh
    · exact .inl hh
    · split at hh
      · exact .inl hh
      · exact mem_of_carryOut hh

end MemoryRoster

end Telepathy

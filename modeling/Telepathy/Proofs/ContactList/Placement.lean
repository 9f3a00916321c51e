import Telepathy.Proofs.ContactList.Announcements
import Telepathy.Proofs.ContactList.Attempts

set_option autoImplicit false

/-!
# Channels keep their places

The path of a channel is made of the handle of its target when the channel opens, and it stays.
Since no table gives one handle to two identifiers, not even one after the other, two channels of a
contact list never have the same path, whatever happens to the list and whoever else uses the
tables. This holds even while a group is moved to its own name: the channel that is about to close
is not in the list any more. So whoever looks for a channel at its path finds this channel.
-/

namespace Telepathy.ContactScene

variable {σ : Type} {server : ContactServer σ} {P : ContactTarget → Prop} {s s₁ : ContactScene σ}

namespace Arranged

/-- Channels stay arranged if each of them was there before, at the same path. -/
theorem of_channels (h : s.Arranged none) (hbase : s₁.list.basePath = s.list.basePath)
    (htables : s.tables.Evolves s₁.tables)
    (hold : ∀ t c₁, s₁.list.channels.get? t = some c₁ →
      ∃ c, s.list.channels.get? t = some c ∧ c.handle = c₁.handle ∧ c.path = c₁.path) :
    s₁.Arranged none := by
  refine h.inherit hbase htables (by simp) fun t look hlook => ?_
  obtain ⟨c₁, hc₁, rfl⟩ := ContactList.look?_eq_some.mp (hlook.resolve_right (by simp))
  obtain ⟨c, hc, hhandle, hpath⟩ := hold t c₁ hc₁
  exact ⟨c.look, .inl (ContactList.look?_eq_some.mpr ⟨c, hc, rfl⟩), hhandle, hpath⟩

/-- It makes no difference to the channels what others do with the tables. -/
theorem elsewhere (h : s.Arranged none) (hbase : s₁.list.basePath = s.list.basePath)
    (hchannels : s₁.list.channels = s.list.channels) (htables : s.tables.Evolves s₁.tables) :
    s₁.Arranged none :=
  h.of_channels hbase htables fun _ c₁ hc₁ => ⟨c₁, hchannels ▸ hc₁, rfl, rfl⟩

/-- A channel may change at its place. -/
theorem replace (h : s.Arranged none) {t : ContactTarget} {c c' : ContactChannel}
    (hc : s.list.channels.get? t = some c) (hlist : s₁.list = s.list.put t c')
    (hhandle : c'.handle = c.handle) (hpath : c'.path = c.path)
    (htables : s.tables.Evolves s₁.tables) : s₁.Arranged none := by
  refine h.of_channels (by rw [hlist]; rfl) htables fun t' c₁ hc₁ => ?_
  rw [hlist, ContactList.put, SortedMap.get?_insert] at hc₁
  split at hc₁
  case isTrue heq =>
    cases hc₁
    exact ⟨c, heq ▸ hc, hhandle.symm, hpath.symm⟩
  case isFalse => exact ⟨c₁, hc₁, rfl, rfl⟩

/-- The channel at a path is the one that is found there. -/
theorem at?_path (h : s.Arranged none) {t : ContactTarget} {c : ContactChannel}
    (hc : s.list.channels.get? t = some c) : s.list.at? c.path = some (t, c) := by
  have howns : ∀ {t c}, s.list.channels.get? t = some c → s.Owns none t c.look := fun hc =>
    .inl (ContactList.look?_eq_some.mpr ⟨_, hc, rfl⟩)
  cases hfound : s.list.at? c.path with
  | none =>
    have hmem := SortedMap.get?_eq_some_iff.mp hc
    simpa using List.find?_eq_none.mp hfound (t, c) hmem
  | some entry =>
    obtain ⟨t', c'⟩ := entry
    obtain ⟨hc', hpath⟩ := ContactList.of_at? hfound
    obtain rfl : t' = t := h.apart t' c'.look t c.look (howns hc') (howns hc) hpath
    cases hc.symm.trans hc'
    rfl

end Arranged

/-- Every act leaves the channels at their places, and opens others at places of their own. -/
theorem Act.arranged (hact : Act server P s s₁) (h : s.Arranged none) : s₁.Arranged none := by
  have htables := hact.sustains.evolves
  cases hact with
  | call m => exact h.elsewhere rfl rfl htables
  | change ht c =>
    unfold ContactScene.change updateMembership
    split
    · exact h
    case h_2 ch hch =>
      exact h.replace hch rfl rfl rfl (HandleTables.evolves_exchangeContacts _ _ _)
  | opening hopen =>
    rcases openChannel_eq_ok hopen with
      ⟨rfl, -⟩ | ⟨r, c, hensure, -, rfl, habsent, hhandle, hpath, -⟩
    · exact h
    · refine h.opening hensure ?_ hhandle hpath
      rintro look (hlook | hlook)
      · obtain ⟨c', hc', -⟩ := ContactList.look?_eq_some.mp hlook
        exact habsent (ContactList.hasChannel_iff.mpr ⟨c', hc'⟩)
      · cases hlook
  | announcePending =>
    rcases s.announcePending_cases with hsame | ⟨fresh, batch, hannounces, -⟩
    · rwa [hsame]
    · exact hannounces.arranged h
  | announceFor t token =>
    unfold ContactScene.announceFor
    split
    · exact h
    case h_2 c hc => exact h.replace hc rfl rfl rfl (.refl _)
  | satisfy t token =>
    unfold ContactScene.satisfy
    split
    · exact h
    case h_2 c hc =>
      split
      · exact h.elsewhere rfl rfl (.refl _)
      · exact h.replace hc rfl rfl rfl (.refl _)
  | fail tokens e => exact h.elsewhere rfl rfl htables
  | detach name =>
    refine h.of_channels rfl htables fun t' c₁ hc₁ => ?_
    rw [ContactScene.detach, ContactList.remove, SortedMap.get?_erase] at hc₁
    split at hc₁
    · cases hc₁
    · exact ⟨c₁, hc₁, rfl, rfl⟩
  | close t c e =>
    exact h.elsewhere (by rw [list_close]) (by rw [list_close]) htables
  | dismiss t c reason e =>
    exact h.elsewhere (by rw [list_dismiss]) (by rw [list_dismiss]) htables
  | arrival => exact h.elsewhere rfl rfl htables

theorem Acts.arranged (hacts : Acts server P s s₁) (h : s.Arranged none) : s₁.Arranged none :=
  hacts.rel (R := fun s s' => s.Arranged none → s'.Arranged none) (fun _ => id)
    (fun h h' hs => h' (h hs)) Act.arranged h

/-! ## Operations -/

theorem arranged_perform (op : ContactOperation (SortedSet Handle)) (h : s.Arranged none) :
    (s.perform server op).2.Arranged none := by
  by_cases hop : ∃ e, op = .failed e
  · obtain ⟨e, rfl⟩ := hop
    simp only [perform, noticed, rosterFailed]
    split
    · -- Whoever waits is told so; the channels stay where they are.
      refine h.of_channels rfl (.refl _) fun t c₁ hc₁ => ?_
      change (SortedMap.mapValues _ _).get? t = some c₁ at hc₁
      rw [SortedMap.get?_mapValues] at hc₁
      obtain ⟨c, hc, rfl⟩ := Option.map_eq_some_iff.mp hc₁
      exact ⟨c, hc, rfl, rfl⟩
    · exact h
  · have hacts : Acts server anyChannel s (s.perform server op).2 :=
      acts_perform s fun e he => hop ⟨e, he⟩
    exact hacts.arranged h

theorem arranged_offer (r : ChannelRequest) (h : s.Arranged none) :
    (s.offer server r).2.Arranged none := by
  have hacts : Acts server anyChannel s (s.offer server r).2 := acts_offer s r
  exact hacts.arranged h

theorem arranged_disconnect (h : s.Arranged none) : s.disconnect.Arranged none :=
  .of_no_channels (h.faithful.evolves s.sustains_disconnect.evolves) (by rw [(disconnect_eq s).1])

theorem arranged_openLists (server : ContactServer σ) (h : s.Arranged none) :
    s.openLists.Arranged none := by
  have hacts : Acts server anyChannel s s.openLists := acts_openLists s
  exact hacts.arranged h

end Telepathy.ContactScene

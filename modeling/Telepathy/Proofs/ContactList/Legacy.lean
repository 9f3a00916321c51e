import Telepathy.Proofs.ContactList.Lines
import Telepathy.Proofs.ContactList.Numbers
import Telepathy.Proofs.ContactList.Placement
import Telepathy.Proofs.Request.Grammar

set_option autoImplicit false

/-!
# What old clients do and see

Old clients give contacts by number. If every number is that of a handle in use, they might as well
have given the set of these handles. If a single number is none, nothing happens at all.

What old clients see of a channel is what it is. The tuple by which a channel is listed is read from
its properties, of which each says what the channel was made with; and since channels keep their
places, the channel that is found at a path is the one that was announced there.
-/

namespace Telepathy

/-! ## Changes -/

namespace ContactScene

variable {σ : Type} (server : ContactServer σ) (s : ContactScene σ) {numbers : List Nat}

/-- The errors that an old client gets are those that other clients get. -/
theorem legacy_toError (outcome : Except ContactListRefusal Unit) :
    (outcome.mapError LegacyRefusal.contactList).mapError LegacyRefusal.toError =
      outcome.mapError ContactListRefusal.toError := by
  cases outcome <;> rfl

/-- Who gives the numbers of handles in use might as well give the handles. -/
theorem perform_legacy_of_allots (h : ∀ n ∈ numbers, s.tables.contact.Allots n)
    (path : ObjectPath) (message : String) :
    s.perform server (.legacyAdd path numbers message) =
      s.perform server (.addMembers path (Handle.numbered numbers) message) ∧
    s.perform server (.legacyRemove path numbers) =
      s.perform server (.removeMembers path (Handle.numbered numbers)) := by
  simp only [perform, legacyAddMembers, legacyRemoveMembers,
    HandleTable.holdNumbers_of_allots h, legacy_toError]
  exact ⟨rfl, rfl⟩

/-- Who gives a number that is none is refused, and nothing changes. -/
theorem perform_legacy_of_not_allots (h : ¬ ∀ n ∈ numbers, s.tables.contact.Allots n)
    (path : ObjectPath) (message : String) :
    ∃ e : Error, e.kind = .invalidHandle ∧
      s.perform server (.legacyAdd path numbers message) = (.error e, s) ∧
      s.perform server (.legacyRemove path numbers) = (.error e, s) := by
  obtain ⟨r, hr, hkind⟩ := HandleTable.holdNumbers_of_not_allots h
  refine ⟨r.toError, hkind, ?_⟩
  simp only [perform, legacyAddMembers, legacyRemoveMembers, hr]
  exact ⟨rfl, rfl⟩

end ContactScene

/-! ## Channels -/

namespace ContactChannel

theorem channelType_details (c : ContactChannel) (t : ContactTarget) :
    (c.details t).properties.get? Property.channelType =
      some (.text Property.contactListType) := by
  simp [details, SortedMap.ofList, SortedMap.get?_insert, Property.channelType,
    Property.targetEntity, Property.targetHandle, Property.targetId, Property.requested,
    Property.interfaces]

theorem targetHandle_details (c : ContactChannel) (t : ContactTarget) :
    (c.details t).properties.get? Property.targetHandle = some (.nat c.handle.number) := by
  simp [details, SortedMap.ofList, SortedMap.get?_insert, Property.targetHandle, Property.targetId,
    Property.requested, Property.interfaces]

/-- Old clients see a channel listed as it is, as long as its handle is a 32-bit word. -/
theorem listing_details {c : ContactChannel} (t : ContactTarget)
    (hword : c.handle.number < Value.wordLimit) :
    (c.details t).listing =
      ⟨c.path, Property.contactListType, t.entity.wire, c.handle.number⟩ := by
  have htype : (c.details t).channelType = Property.contactListType := by
    rw [ChannelDetails.channelType, ChannelDetails.channelType?, PropertyMap.text?,
      channelType_details]
    rfl
  have hentity : (c.details t).entity = t.entity := by
    rw [ChannelDetails.entity, PropertyMap.word?, targetEntity_details, Option.bind_some,
      Value.word?_eq_some_iff.mpr ⟨rfl, t.entity.wire_lt⟩, Option.bind_some,
      EntityType.ofWire?_eq_some_iff.mpr rfl]
    rfl
  have htarget : (c.details t).target? = some c.handle := by
    rw [ChannelDetails.target?, PropertyMap.word?, targetHandle_details, Option.bind_some,
      Value.word?_eq_some_iff.mpr ⟨rfl, hword⟩, Option.bind_some,
      Handle.ofNat?_eq_some_iff.mpr rfl]
  rw [ChannelDetails.listing, htype, hentity, htarget]
  rfl

end ContactChannel

namespace ContactList

variable {l : ContactList} {path : ObjectPath}

theorem mem_announced {t : ContactTarget} {c : ContactChannel} :
    (t, c) ∈ l.announced ↔ l.channels.get? t = some c ∧ c.announced = true := by
  rw [announced, List.mem_filter, ← SortedMap.get?_eq_some_iff]

/-- What old clients are told of the channel at a path. -/
structure Shows (l : ContactList) (path : ObjectPath) (m : Membership) : Prop where
  members : l.legacyMembers path =
    .ok (m.members.toList, m.localPending.toList, m.remotePending.toList)
  localPending : l.legacyLocalPending path = .ok m.localPendingInfo
  flags : l.legacyFlags path = .ok m.flags.toNat

/-- Old clients are told that there is no channel at a path. -/
structure Hides (l : ContactList) (path : ObjectPath) (r : LegacyRefusal) : Prop where
  members : l.legacyMembers path = .error r
  localPending : l.legacyLocalPending path = .error r
  flags : l.legacyFlags path = .error r

theorem shows_of_announcedAt {m : Membership} (h : l.announcedAt path = .ok m) :
    l.Shows path m := by
  constructor
  · rw [legacyMembers, h]
    rfl
  · rw [legacyLocalPending, h]
    rfl
  · rw [legacyFlags, h]
    rfl

/-- Where no channel was announced, old clients see none. -/
theorem hides_of_not_announced (h : ∀ e ∈ l.announced, e.2.path ≠ path) :
    l.Hides path (.contactList (.noChannelAt path)) := by
  have hnone : l.announcedAt path = .error (.contactList (.noChannelAt path)) := by
    unfold announcedAt
    split
    case h_1 t c hfound =>
      obtain ⟨hc, hpath⟩ := of_at? hfound
      refine if_neg fun hannounced => ?_
      exact h (t, c) (mem_announced.mpr ⟨hc, hannounced⟩) hpath
    case h_2 => rfl
  constructor
  · rw [legacyMembers, hnone]
    rfl
  · rw [legacyLocalPending, hnone]
    rfl
  · rw [legacyFlags, hnone]
    rfl

end ContactList

/-- Old clients see every announced channel at its path. -/
theorem ContactScene.Arranged.shows {σ : Type} {s : ContactScene σ} (h : s.Arranged none)
    {t : ContactTarget} {c : ContactChannel} (hc : (t, c) ∈ s.list.announced) :
    s.list.Shows c.path c.membership := by
  obtain ⟨hthere, hannounced⟩ := ContactList.mem_announced.mp hc
  refine ContactList.shows_of_announcedAt ?_
  rw [ContactList.announcedAt, h.at?_path hthere]
  exact if_pos hannounced

end Telepathy

import Telepathy.ContactList.Operation

set_option autoImplicit false

/-!
# Contact lists of connections that are gone

When the connection goes away, a contact list gives up all channels at once and tells clients of
each that they knew. From then on nothing brings it back: whatever the server or clients do, it
stays as it is, calls nobody and takes nothing on; of requests it only reports that they fail.
-/

namespace Telepathy

/-- The connection is gone, and no channel is left. -/
def ContactList.Ended (l : ContactList) : Prop := l.roster = .disconnected ∧ l.channels = .empty

theorem ContactList.Ended.queuedRequests {l : ContactList} (h : l.Ended) :
    l.queuedRequests = 0 := by
  rw [ContactList.queuedRequests, h.2]
  rfl

namespace ContactScene

variable {σ : Type} {server : ContactServer σ} {s : ContactScene σ}

/-! ## Going away -/

/-- All that a contact list does when the connection goes away is to tell clients that the channels
they know are closed. -/
theorem disconnect_eq (s : ContactScene σ) :
    s.disconnect.list = { s.list with roster := .disconnected, channels := .empty } ∧
      s.disconnect.server = s.server ∧
      s.disconnect.effects =
        s.effects ++ s.list.announced.map fun e => .signal e.2.path .closed := by
  have hrelease : ∀ (l : List (ContactTarget × ContactChannel)) (s : ContactScene σ),
      let s' := l.foldl (fun s e =>
        let s := s.releaseChannel e.1 e.2
        if e.2.announced then s.emit (.signal e.2.path .closed) else s) s
      s'.list = s.list ∧ s'.server = s.server ∧
        s'.effects = s.effects ++
          (l.filter fun e => e.2.announced).map fun e => .signal e.2.path .closed := by
    intro l
    induction l with
    | nil => exact fun s => ⟨rfl, rfl, (List.append_nil _).symm⟩
    | cons e l ih =>
      intro s
      rw [List.foldl_cons]
      obtain ⟨hlist, hserver, heffects⟩ := ih (if e.2.announced then
        (s.releaseChannel e.1 e.2).emit (.signal e.2.path .closed) else s.releaseChannel e.1 e.2)
      refine ⟨hlist.trans ?_, hserver.trans ?_, heffects.trans ?_⟩
      · cases e.2.announced <;> rfl
      · cases e.2.announced <;> rfl
      · cases hknown : e.2.announced with
        | true =>
          rw [List.filter_cons, if_pos hknown]
          exact List.append_assoc ..
        | false =>
          simp only [List.filter_cons, hknown, Bool.false_eq_true, if_false]
          rfl
  exact hrelease s.list.channels.toList
    { s with list := { s.list with roster := .disconnected, channels := .empty } }

theorem ended_disconnect (s : ContactScene σ) : s.disconnect.list.Ended := by
  rw [(disconnect_eq s).1]
  exact ⟨rfl, rfl⟩

/-! ## Gone -/

section Ended

variable (h : s.list.Ended)
include h

theorem checkReceived_of_ended : s.list.checkReceived = .error .gone := by
  rw [ContactList.checkReceived, h.1]

theorem channelAt_of_ended (path : ObjectPath) :
    s.list.channelAt path = .error (.noChannelAt path) := by
  rw [ContactList.channelAt, ContactList.at?, h.2]
  rfl

theorem addMembers_of_ended (path : ObjectPath) (contacts : SortedSet Handle) (message : String) :
    (s.addMembers server path contacts message).2 = s := by
  unfold addMembers ContactList.checkAddition
  rw [checkReceived_of_ended h]
  rfl

theorem removeMembers_of_ended (path : ObjectPath) (contacts : SortedSet Handle) :
    (s.removeMembers server path contacts).2 = s := by
  unfold removeMembers ContactList.checkRemoval
  rw [checkReceived_of_ended h]
  rfl

theorem closeChannel_of_ended (path : ObjectPath) : (s.closeChannel server path).2 = s := by
  unfold closeChannel ContactList.checkClosing
  rw [channelAt_of_ended h]
  rfl

/-- There is no group to rename. -/
theorem renameGroup_of_ended (old target : String) : (s.renameGroup server old target).2 = s := by
  have hnone : ∀ name, s.list.groupNamed name = .error (.noSuchGroup name) := fun name => by
    rw [ContactList.groupNamed, ContactList.group?, h.2]
    rfl
  have hrefused : ∃ r, checkRenaming server s.list old target = .error r := by
    unfold checkRenaming
    cases s.list.renameStrategy with
    | error r => exact ⟨r, rfl⟩
    | ok rename =>
      cases canonicalGroup server old with
      | error r => exact ⟨r, rfl⟩
      | ok old =>
        cases canonicalGroup server target with
        | error r => exact ⟨r, rfl⟩
        | ok target =>
          refine ⟨.noSuchGroup old, ?_⟩
          simp only [hnone]
          rfl
  obtain ⟨r, hr⟩ := hrefused
  unfold renameGroup
  rw [hr]

/-- Nothing that happens to a contact list that is gone changes anything. -/
theorem perform_of_ended (op : ContactOperation (SortedSet Handle)) :
    (s.perform server op).2 = s := by
  have hpending : s.list.roster ≠ .pending := by
    rw [h.1]
    decide
  have hreceived : s.list.roster ≠ .received := by
    rw [h.1]
    decide
  have hgroups : ¬ s.list.followsGroups = true := by simp [ContactList.followsGroups, h.1]
  cases op with
  | received => exact if_neg hpending
  | failed e => exact if_neg hpending
  | contactsChanged changed departed => exact if_neg hreceived
  | blockingChanged contacts => exact if_neg hreceived
  | groupsCreated names => exact if_neg hgroups
  | groupsRemoved names => exact if_neg hgroups
  | groupRenamed old target => exact if_neg hgroups
  | groupsChanged contacts added removed => exact if_neg fun hboth => hgroups hboth.1
  | addMembers path contacts message => exact addMembers_of_ended h path contacts message
  | removeMembers path contacts => exact removeMembers_of_ended h path contacts
  | closeChannel path => exact closeChannel_of_ended h path
  | renameGroup old target => exact renameGroup_of_ended h old target
  | legacyAdd path numbers message =>
    simp only [perform, legacyAddMembers]
    cases s.tables.contact.holdNumbers numbers with
    | error r => rfl
    | ok contacts => exact addMembers_of_ended h path contacts message
  | legacyRemove path numbers =>
    simp only [perform, legacyRemoveMembers]
    cases s.tables.contact.holdNumbers numbers with
    | error r => rfl
    | ok contacts => exact removeMembers_of_ended h path contacts

end Ended

/-! ## Requests that are turned down -/

section Unservable

variable {turnedDown : ContactListRefusal} (h : s.list.checkServable = .error turnedDown)
include h

/-- A request for a list or a group is refused, for one reason or another. -/
theorem checkListRequest_of_unservable (r : ChannelRequest) :
    ∃ refusal, checkListRequest s.list r = .error refusal := by
  unfold checkListRequest
  dsimp only
  split
  · exact ⟨_, rfl⟩
  · split
    · exact ⟨_, rfl⟩
    · split
      · exact ⟨_, rfl⟩
      · exact ⟨turnedDown, by rw [h]; rfl⟩

theorem checkGroupRequest_of_unservable (server : ContactServer σ) (r : ChannelRequest) :
    ∃ refusal, checkGroupRequest server s.list r = .error refusal := by
  unfold checkGroupRequest
  dsimp only
  split
  · exact ⟨_, rfl⟩
  · split
    · exact ⟨_, rfl⟩
    · exact ⟨turnedDown, by rw [h]; rfl⟩

/-- A request changes nothing then, other than that it fails if it is for this manager. -/
theorem offer_of_unservable (r : ChannelRequest) : (s.offer server r).2.list = s.list := by
  unfold offer
  split
  · rfl
  · split
    · obtain ⟨refusal, hrefused⟩ := checkListRequest_of_unservable h r
      rw [requestList, hrefused]
      rfl
    · obtain ⟨refusal, hrefused⟩ := checkGroupRequest_of_unservable h server r
      rw [requestGroup, hrefused]
      rfl
    all_goals rfl

end Unservable

theorem offer_of_ended (h : s.list.Ended) (r : ChannelRequest) :
    (s.offer server r).2.list = s.list :=
  offer_of_unservable (by rw [ContactList.checkServable, h.1]) r

end ContactScene

end Telepathy

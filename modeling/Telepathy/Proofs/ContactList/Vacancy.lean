import Telepathy.Proofs.ContactList.Requests
import Telepathy.Proofs.ContactList.Settings
import Telepathy.Proofs.Group.Change

set_option autoImplicit false

/-!
# Before the roster arrives

Channels may be requested, renamed and closed while the roster is on its way, but nobody gets into
them and no client is told of them; and so it remains if the roster cannot be retrieved. So when the
roster arrives, all channels are empty and are those of lists and groups that the protocol has.
-/

namespace Telepathy

/-- Whether a protocol has what a channel stands for. -/
def ContactTarget.isSupported (t : ContactTarget) (c : Capabilities) : Bool :=
  match t with
  | list kind => kind.isSupported c
  | group _ => c.groups.isSupported

/-- A channel with nobody in it that no client knows of. -/
structure ContactChannel.Vacant (c : ContactChannel) : Prop where
  unannounced : c.announced = false
  empty : c.membership.standings = .empty

namespace ContactList

/-- As long as the roster is not there, all channels are vacant. -/
def Unfilled (l : ContactList) : Prop :=
  l.roster ≠ .received →
    ∀ t c, l.channels.get? t = some c → t.isSupported l.capabilities = true ∧ c.Vacant

variable {l l' : ContactList}

/-- Once the roster is there, channels may be filled. -/
theorem unfilled_of_received (h : l.roster = .received) : l.Unfilled := fun habsent =>
  absurd h habsent

theorem unfilled_of_settings (hs : l'.settings = l.settings) (h : l.roster = .received) :
    l'.Unfilled :=
  unfilled_of_received ((Prod.mk.inj hs).2.trans h)

/-- Groups are followed only if the protocol has them. -/
theorem isSupported_of_followsGroups (h : l.followsGroups = true) :
    l.capabilities.groups.isSupported = true := by
  rw [followsGroups, Bool.and_eq_true] at h
  exact h.1

/-- A contact list stays unfilled if it gets channels only that are vacant. -/
theorem Unfilled.extend (h : l.Unfilled) (hs : l'.settings = l.settings)
    (hnew : l.roster ≠ .received → ∀ t c, l'.channels.get? t = some c →
      l.channels.get? t = some c ∨ t.isSupported l.capabilities = true ∧ c.Vacant) :
    l'.Unfilled := by
  intro habsent t c hc
  rw [settings, settings, Prod.mk.injEq] at hs
  rw [hs.2] at habsent
  rw [hs.1]
  rcases hnew habsent t c hc with hold | hvacant
  · exact h habsent t c hold
  · exact hvacant

end ContactList

namespace ContactScene

variable {σ : Type} {server : ContactServer σ} {s s₁ : ContactScene σ}

@[simp] theorem list_close (t : ContactTarget) (c : ContactChannel) (e : Error) :
    (s.close t c e).list = s.list := by
  unfold close
  cases c.announced <;> rfl

@[simp] theorem list_dismiss (t : ContactTarget) (c : ContactChannel) (reason : ChangeReason)
    (e : Error) : (s.dismiss t c reason e).list = s.list := by
  unfold dismiss
  rw [list_close]

theorem unfilled_foldl {α : Type} {f : ContactScene σ → α → ContactScene σ} {P : α → Prop}
    (hf : ∀ (s : ContactScene σ) a, P a → s.list.Unfilled → (f s a).list.Unfilled) (l : List α)
    (hl : ∀ a ∈ l, P a) (h : s.list.Unfilled) : (l.foldl f s).list.Unfilled := by
  induction l generalizing s with
  | nil => exact h
  | cons a l ih =>
    exact ih (fun a ha => hl a (List.mem_cons_of_mem _ ha)) (hf s a (hl a List.mem_cons_self) h)

/-! ## Channels come and go -/

theorem unfilled_openChannel {t : ContactTarget} {requested : Bool}
    (h : s.list.Unfilled) (hopen : s.openChannel t requested = .ok s₁)
    (ht : t.isSupported s.list.capabilities = true) : s₁.list.Unfilled := by
  refine h.extend (settings_openChannel s hopen) fun _ t' c hc => ?_
  unfold openChannel at hopen
  split at hopen
  · cases hopen
    exact .inl hc
  · split at hopen <;> cases hopen
    simp only [ContactList.put, SortedMap.get?_insert] at hc
    by_cases heq : t' = t
    · rw [if_pos heq] at hc
      cases hc
      exact .inr ⟨heq ▸ ht, rfl, rfl⟩
    · rw [if_neg heq] at hc
      exact .inl hc

theorem unfilled_tryOpen {t : ContactTarget} (h : s.list.Unfilled)
    (ht : t.isSupported s.list.capabilities = true) : (s.tryOpen t).list.Unfilled := by
  unfold tryOpen
  split
  case h_1 hopen => exact unfilled_openChannel h hopen ht
  case h_2 => exact h

theorem unfilled_tryOpenGroups (names : List String) (h : s.list.Unfilled)
    (hgroups : s.list.capabilities.groups.isSupported = true) :
    (s.tryOpenGroups names).list.Unfilled := by
  induction names generalizing s with
  | nil => exact h
  | cons name names ih =>
    have hsame : (s.tryOpen (.group name)).list.capabilities = s.list.capabilities :=
      congrArg Prod.fst (settings_tryOpen s (.group name))
    exact ih (unfilled_tryOpen h hgroups) (by rw [hsame]; exact hgroups)

theorem unfilled_detach (t : ContactTarget) (h : s.list.Unfilled) :
    (s.detach t).list.Unfilled := by
  refine h.extend rfl fun _ t' c hc => .inl ?_
  rw [detach, ContactList.remove, SortedMap.get?_erase] at hc
  split at hc
  · cases hc
  · exact hc

theorem unfilled_announcePending (h : s.list.Unfilled) : s.announcePending.list.Unfilled := by
  by_cases hreceived : s.list.roster = .received
  · exact ContactList.unfilled_of_settings (settings_announcePending s) hreceived
  · unfold announcePending
    simp only [if_pos (Or.inl hreceived)]
    exact h

theorem unfilled_closeGroup (name : String) (h : s.list.Unfilled) :
    (s.closeGroup name).list.Unfilled := by
  unfold closeGroup
  split
  · exact h
  · rw [list_dismiss]
    exact unfilled_detach _ h

/-- Who changes nobody fills nothing. -/
theorem unfilled_change (t : ContactTarget) {c : MembershipChange} (hc : c.places = .empty)
    (h : s.list.Unfilled) : (s.change t c).list.Unfilled := by
  refine h.extend (settings_change s t c) fun habsent t' ch hch => ?_
  unfold change updateMembership at hch
  split at hch
  · exact .inl hch
  case h_2 old hold =>
    simp only [ContactList.put, SortedMap.get?_insert] at hch
    by_cases heq : t' = t
    · rw [if_pos heq] at hch
      cases hch
      obtain ⟨ht, hvacant⟩ := h habsent t old hold
      refine .inr ⟨heq ▸ ht, hvacant.unannounced, SortedMap.eq_empty_iff.mpr fun k => ?_⟩
      rw [Membership.change_get?, hc, hvacant.empty]
      rfl
    · rw [if_neg heq] at hch
      exact .inl hch

/-! ## What the server says -/

theorem unfilled_contactsChanged (changed departed : SortedSet Handle) (h : s.list.Unfilled) :
    (s.contactsChanged server changed departed).list.Unfilled := by
  unfold contactsChanged
  split
  case isTrue hreceived =>
    exact ContactList.unfilled_of_settings (settings_applyContacts server s changed departed)
      hreceived
  case isFalse => exact h

theorem unfilled_blockingChanged (contacts : SortedSet Handle) (h : s.list.Unfilled) :
    (s.blockingChanged server contacts).list.Unfilled := by
  by_cases hreceived : s.list.roster = .received
  · exact ContactList.unfilled_of_settings (settings_blockingChanged server s contacts) hreceived
  · unfold blockingChanged
    rw [if_neg hreceived]
    exact h

theorem unfilled_groupsCreated (names : List String) (h : s.list.Unfilled) :
    (s.groupsCreated server names).list.Unfilled := by
  unfold groupsCreated
  split
  case isTrue hfollows =>
    exact unfilled_announcePending
      (unfilled_tryOpenGroups _ h (ContactList.isSupported_of_followsGroups hfollows))
  case isFalse => exact h

theorem unfilled_groupsRemoved (names : List String) (h : s.list.Unfilled) :
    (s.groupsRemoved server names).list.Unfilled := by
  unfold groupsRemoved
  split
  · exact unfilled_foldl (P := fun _ => True) (fun s name _ hs => unfilled_closeGroup name hs) _
      (fun _ _ => trivial) h
  · exact h

theorem unfilled_moveGroup (old target : String) (h : s.list.Unfilled) :
    (s.moveGroup old target).list.Unfilled := by
  by_cases hreceived : s.list.roster = .received
  · exact ContactList.unfilled_of_settings (settings_moveGroup s old target) hreceived
  · unfold moveGroup
    split
    case h_1 => exact h
    case h_2 c hc =>
      -- A group exists, so the protocol has groups, and nobody is in it.
      obtain ⟨hgroups, hvacant⟩ := h hreceived _ c hc
      have hnobody : c.membership.members = .empty := by
        rw [Membership.members, Membership.inPlace, hvacant.empty]
        rfl
      rw [list_dismiss]
      refine unfilled_change _ (by rw [hnobody]; rfl) (unfilled_announcePending ?_)
      exact unfilled_tryOpen (unfilled_detach _ h) hgroups

theorem unfilled_groupRenamed (old target : String) (h : s.list.Unfilled) :
    (s.groupRenamed server old target).list.Unfilled := by
  unfold groupRenamed
  split
  · split
    · exact unfilled_moveGroup _ _ h
    · exact h
  · exact h

theorem unfilled_groupsChanged (contacts : SortedSet Handle) (added removed : List String)
    (h : s.list.Unfilled) : (s.groupsChanged server contacts added removed).list.Unfilled := by
  by_cases hreceived : s.list.roster = .received
  · exact ContactList.unfilled_of_settings (settings_groupsChanged server s contacts added removed)
      hreceived
  · unfold groupsChanged
    rw [if_neg fun hboth => hreceived hboth.2]
    exact h

theorem unfilled_openLists (h : s.list.Unfilled) : s.openLists.list.Unfilled := by
  unfold openLists
  have hall : ∀ kinds : List ListKind, (∀ k ∈ kinds, k.isSupported s.list.capabilities = true) →
      ∀ s₁ : ContactScene σ, s₁.list.capabilities = s.list.capabilities → s₁.list.Unfilled →
        (kinds.foldl (fun s k => s.tryOpen (.list k)) s₁).list.Unfilled := by
    intro kinds
    induction kinds with
    | nil => exact fun _ _ _ h => h
    | cons k kinds ih =>
      intro hkinds s₁ hsame h₁
      have hsame' : (s₁.tryOpen (.list k)).list.capabilities = s₁.list.capabilities :=
        congrArg Prod.fst (settings_tryOpen s₁ (.list k))
      refine ih (fun k hk => hkinds k (List.mem_cons_of_mem _ hk)) _ (hsame'.trans hsame) ?_
      refine unfilled_tryOpen h₁ ?_
      rw [hsame]
      exact hkinds k List.mem_cons_self
  exact hall _ (fun k hk => of_decide_eq_true (by simpa using (List.mem_filter.mp hk).2)) s rfl h

theorem unfilled_rosterReceived (h : s.list.Unfilled) :
    (s.rosterReceived server).list.Unfilled := by
  unfold rosterReceived
  split
  · exact ContactList.unfilled_of_received (Prod.mk.inj (settings_loadRoster server s)).2
  · exact h

/-- The channels stay as they are, but nobody waits for them any longer. -/
theorem unfilled_rosterFailed (e : Error) (h : s.list.Unfilled) :
    (s.rosterFailed e).list.Unfilled := by
  unfold rosterFailed
  split
  case isTrue hpending =>
    intro _ t c hc
    simp only [fail, SortedMap.get?_mapValues] at hc
    obtain ⟨old, hold, rfl⟩ := Option.map_eq_some_iff.mp hc
    obtain ⟨ht, hvacant⟩ := h (by rw [hpending]; decide) t old hold
    exact ⟨ht, hvacant.unannounced, hvacant.empty⟩
  case isFalse => exact h

theorem unfilled_disconnect : s.disconnect.list.Unfilled := by
  intro _ t c hc
  rw [s.ended_disconnect.2, SortedMap.get?_empty] at hc
  cases hc

/-! ## What clients want -/

theorem received_of_checkReceived {l : ContactList} (h : l.checkReceived = .ok ()) :
    l.roster = .received := by
  unfold ContactList.checkReceived at h
  split at h <;> first | assumption | cases h

/-- Clients change members only once the roster is there. -/
theorem unfilled_addMembers (path : ObjectPath) (contacts : SortedSet Handle) (message : String)
    (h : s.list.Unfilled) : (s.addMembers server path contacts message).2.list.Unfilled := by
  cases hchecked : s.list.checkAddition path contacts with
  | error r =>
    unfold addMembers
    rw [hchecked]
    exact h
  | ok r =>
    obtain ⟨_, hreceived, -⟩ := Except.bind_eq_ok.mp hchecked
    exact ContactList.unfilled_of_settings (settings_addMembers server s path contacts message)
      (received_of_checkReceived hreceived)

theorem unfilled_removeMembers (path : ObjectPath) (contacts : SortedSet Handle)
    (h : s.list.Unfilled) : (s.removeMembers server path contacts).2.list.Unfilled := by
  cases hchecked : s.list.checkRemoval path contacts with
  | error r =>
    unfold removeMembers
    rw [hchecked]
    exact h
  | ok t =>
    obtain ⟨_, hreceived, -⟩ := Except.bind_eq_ok.mp hchecked
    exact ContactList.unfilled_of_settings (settings_removeMembers server s path contacts)
      (received_of_checkReceived hreceived)

theorem unfilled_closeChannel (path : ObjectPath) (h : s.list.Unfilled) :
    (s.closeChannel server path).2.list.Unfilled := by
  unfold closeChannel
  split
  · exact h
  · split
    case h_1 hcall =>
      have hsame := congrArg (·.2.list) hcall
      exact hsame ▸ h
    case h_2 hcall =>
      have hsame := congrArg (·.2.list) hcall
      exact unfilled_groupsRemoved _ (hsame ▸ h)

theorem unfilled_emulateRename (old target : String) (members : SortedSet Handle)
    (h : s.list.Unfilled) : (s.emulateRename server old target members).2.list.Unfilled := by
  unfold emulateRename
  split
  case h_1 hcall =>
    have hsame := congrArg (·.2.list) hcall
    exact hsame ▸ h
  case h_2 s₁ hcall =>
    have hsame := congrArg (·.2.list) hcall
    have hadded : (if members.isEmpty then (none, s₁)
        else s₁.call server (.addToGroup target members)).2.list.Unfilled := by
      split <;> exact hsame ▸ h
    simp only
    split
    · exact unfilled_groupsCreated _ hadded
    · split
      case h_1 hcall' =>
        have hsame' := congrArg (·.2.list) hcall'
        exact unfilled_groupsChanged _ _ _ (hsame' ▸ hadded)
      case h_2 hcall' =>
        have hsame' := congrArg (·.2.list) hcall'
        exact hsame' ▸ hadded

theorem unfilled_callRename (rename : GroupRename) (old target : String)
    (members : SortedSet Handle) (h : s.list.Unfilled) :
    (s.callRename server rename old target members).2.list.Unfilled := by
  cases rename with
  | native => exact h
  | emulated => exact unfilled_emulateRename old target members h

theorem unfilled_renameGroup (old target : String) (h : s.list.Unfilled) :
    (s.renameGroup server old target).2.list.Unfilled := by
  unfold renameGroup
  split
  · exact h
  case h_2 rename old target members _ =>
    have hcalled : (s.callRename server rename old target members).2.list.Unfilled :=
      unfilled_callRename rename old target members h
    split
    case h_1 hcall =>
      rw [hcall] at hcalled
      exact hcalled
    case h_2 hcall =>
      rw [hcall] at hcalled
      exact unfilled_groupRenamed _ _ hcalled

theorem unfilled_perform (op : ContactOperation (SortedSet Handle)) (h : s.list.Unfilled) :
    (s.perform server op).2.list.Unfilled := by
  cases op with
  | received => exact unfilled_rosterReceived h
  | failed e => exact unfilled_rosterFailed e h
  | contactsChanged changed departed => exact unfilled_contactsChanged _ _ h
  | blockingChanged contacts => exact unfilled_blockingChanged _ h
  | groupsCreated names => exact unfilled_groupsCreated _ h
  | groupsRemoved names => exact unfilled_groupsRemoved _ h
  | groupRenamed old target => exact unfilled_groupRenamed _ _ h
  | groupsChanged contacts added removed => exact unfilled_groupsChanged _ _ _ h
  | addMembers path contacts message => exact unfilled_addMembers _ _ _ h
  | removeMembers path contacts => exact unfilled_removeMembers _ _ h
  | closeChannel path => exact unfilled_closeChannel _ h
  | renameGroup old target => exact unfilled_renameGroup _ _ h
  | legacyAdd path numbers message =>
    simp only [perform, legacyAddMembers]
    split
    · exact h
    · exact unfilled_addMembers _ _ _ h
  | legacyRemove path numbers =>
    simp only [perform, legacyRemoveMembers]
    split
    · exact h
    · exact unfilled_removeMembers _ _ h

/-! ## Requests -/

/-- A request that waits does so outside the channel. -/
theorem unfilled_satisfy (t : ContactTarget) (token : RequestToken) (h : s.list.Unfilled) :
    (s.satisfy t token).list.Unfilled := by
  refine h.extend (settings_satisfy s t token) fun habsent t' c hc => ?_
  unfold satisfy at hc
  split at hc
  · exact .inl hc
  case h_2 old hold =>
    split at hc
    · exact .inl hc
    · simp only [ContactList.put, SortedMap.get?_insert] at hc
      by_cases heq : t' = t
      · rw [if_pos heq] at hc
        cases hc
        obtain ⟨ht, hvacant⟩ := h habsent t old hold
        exact .inr ⟨heq ▸ ht, hvacant.unannounced, hvacant.empty⟩
      · rw [if_neg heq] at hc
        exact .inl hc

theorem unfilled_requestList (r : ChannelRequest) (h : s.list.Unfilled) :
    (s.requestList r).2.list.Unfilled := by
  unfold requestList
  split
  · exact h
  case h_2 k hchecked =>
    split
    · exact h
    case h_2 hopen =>
      exact unfilled_satisfy _ _ (unfilled_openChannel h hopen (of_checkListRequest hchecked).1)

theorem unfilled_requestGroup (r : ChannelRequest) (h : s.list.Unfilled) :
    (s.requestGroup server r).2.list.Unfilled := by
  by_cases hreceived : s.list.roster = .received
  · exact ContactList.unfilled_of_settings (settings_requestGroup server s r) hreceived
  · unfold requestGroup
    split
    · exact h
    case h_2 name hchecked =>
      have hgroups : s.list.capabilities.groups.isSupported = true := by
        unfold checkGroupRequest at hchecked
        cases hsupported : s.list.capabilities.groups.isSupported with
        | true => rfl
        | false => simp [hsupported, bind, Except.bind] at hchecked
      split
      · split
        · exact h
        · exact unfilled_satisfy _ _ h
      · split
        · exact h
        case h_2 hopen => exact unfilled_satisfy _ _ (unfilled_openChannel h hopen hgroups)

theorem unfilled_conclude {token : RequestToken} {outcome : ContactOutcome σ}
    (h : outcome.2.list.Unfilled) : (conclude token outcome).list.Unfilled := by
  unfold conclude
  split <;> exact h

theorem unfilled_offer (r : ChannelRequest) (h : s.list.Unfilled) :
    (s.offer server r).2.list.Unfilled := by
  unfold offer
  split
  · exact h
  · split
    · exact unfilled_conclude (unfilled_requestList r h)
    · exact unfilled_conclude (unfilled_requestGroup r h)
    · exact h
    · exact h
    · exact h

end ContactScene

end Telepathy

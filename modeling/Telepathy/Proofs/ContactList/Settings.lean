import Telepathy.Proofs.ContactList.Ending

set_option autoImplicit false

/-!
# What a contact list is set to

The capabilities of a contact list are fixed, and how far the roster arrived changes only when the
roster arrives, when it turns out that it cannot be retrieved, and when the connection is gone.
Everything else leaves both as they are.
-/

namespace Telepathy

/-- What a contact list can do, and how far the roster arrived. -/
def ContactList.settings (l : ContactList) : Capabilities × RosterState :=
  (l.capabilities, l.roster)

namespace ContactScene

variable {σ : Type} (server : ContactServer σ) (s : ContactScene σ)

/-! ## Single steps -/

@[simp] theorem settings_call (m : Mutation) :
    (s.call server m).2.list.settings = s.list.settings := rfl

@[simp] theorem settings_emit (e : Effect) : (s.emit e).list.settings = s.list.settings := rfl

@[simp] theorem settings_fail (tokens : List RequestToken) (e : Error) :
    (s.fail tokens e).list.settings = s.list.settings := rfl

@[simp] theorem settings_detach (t : ContactTarget) :
    (s.detach t).list.settings = s.list.settings := rfl

@[simp] theorem settings_change (t : ContactTarget) (c : MembershipChange) :
    (s.change t c).list.settings = s.list.settings := by
  unfold change updateMembership
  split <;> rfl

theorem settings_openChannel {s₁ : ContactScene σ} {t : ContactTarget} {requested : Bool}
    (h : s.openChannel t requested = .ok s₁) : s₁.list.settings = s.list.settings := by
  unfold openChannel at h
  split at h
  · cases h
    rfl
  · split at h <;> cases h
    rfl

@[simp] theorem settings_tryOpen (t : ContactTarget) :
    (s.tryOpen t).list.settings = s.list.settings := by
  unfold tryOpen
  split
  case h_1 s₁ h => exact settings_openChannel s h
  case h_2 => rfl

@[simp] theorem settings_close (t : ContactTarget) (c : ContactChannel) (e : Error) :
    (s.close t c e).list.settings = s.list.settings := by
  unfold close
  cases c.announced <;> rfl

@[simp] theorem settings_dismiss (t : ContactTarget) (c : ContactChannel) (reason : ChangeReason)
    (e : Error) : (s.dismiss t c reason e).list.settings = s.list.settings := by
  unfold dismiss
  simp only [settings_close]

@[simp] theorem settings_announcePending : s.announcePending.list.settings = s.list.settings := by
  unfold announcePending
  simp only
  split <;> rfl

theorem settings_foldl {α : Type} {f : ContactScene σ → α → ContactScene σ}
    (hf : ∀ (s : ContactScene σ) a, (f s a).list.settings = s.list.settings) (l : List α)
    (s : ContactScene σ) : (l.foldl f s).list.settings = s.list.settings := by
  induction l generalizing s with
  | nil => rfl
  | cons a l ih => rw [List.foldl_cons, ih, hf]

/-! ## What the server says -/

@[simp] theorem settings_applyContacts (changed departed : SortedSet Handle) :
    (s.applyContacts server changed departed).list.settings = s.list.settings := by
  simp only [applyContacts, settings_change]
  rw [settings_foldl fun s h => by simp]
  simp

@[simp] theorem settings_contactsChanged (changed departed : SortedSet Handle) :
    (s.contactsChanged server changed departed).list.settings = s.list.settings := by
  unfold contactsChanged
  split <;> simp

@[simp] theorem settings_blockingChanged (contacts : SortedSet Handle) :
    (s.blockingChanged server contacts).list.settings = s.list.settings := by
  unfold blockingChanged
  split <;> simp

@[simp] theorem settings_tryOpenGroups (names : List String) :
    (s.tryOpenGroups names).list.settings = s.list.settings :=
  settings_foldl (fun s name => settings_tryOpen s (.group name)) names s

@[simp] theorem settings_groupsCreated (names : List String) :
    (s.groupsCreated server names).list.settings = s.list.settings := by
  unfold groupsCreated
  split <;> simp

@[simp] theorem settings_closeGroup (name : String) :
    (s.closeGroup name).list.settings = s.list.settings := by
  unfold closeGroup
  split <;> simp

@[simp] theorem settings_groupsRemoved (names : List String) :
    (s.groupsRemoved server names).list.settings = s.list.settings := by
  unfold groupsRemoved
  split
  · exact settings_foldl (fun s name => settings_closeGroup s name) _ s
  · rfl

@[simp] theorem settings_moveGroup (old target : String) :
    (s.moveGroup old target).list.settings = s.list.settings := by
  unfold moveGroup
  split <;> simp

@[simp] theorem settings_groupRenamed (old target : String) :
    (s.groupRenamed server old target).list.settings = s.list.settings := by
  unfold groupRenamed
  split
  · split <;> simp
  · rfl

@[simp] theorem settings_groupsChanged (contacts : SortedSet Handle) (added removed : List String) :
    (s.groupsChanged server contacts added removed).list.settings = s.list.settings := by
  unfold groupsChanged
  split
  · simp only
    rw [settings_foldl fun s name => by simp, settings_foldl fun s name => by simp]
    simp
  · rfl

/-! ## The initial roster -/

@[simp] theorem settings_openLists : s.openLists.list.settings = s.list.settings :=
  settings_foldl (fun s k => settings_tryOpen s (.list k)) _ s

@[simp] theorem settings_abandonGroup (e : Error) (name : String) :
    (abandonGroup e s name).list.settings = s.list.settings := by
  unfold abandonGroup
  split <;> simp

@[simp] theorem settings_settleRequestedGroups (known : List String) :
    (s.settleRequestedGroups server known).list.settings = s.list.settings := by
  have hclose : ∀ (e : Error) (names : List String) (s : ContactScene σ),
      (names.foldl (abandonGroup e) s).list.settings = s.list.settings :=
    fun e => settings_foldl (settings_abandonGroup · e ·)
  unfold settleRequestedGroups
  split
  · rfl
  · by_cases h : s.list.capabilities.groups.isEditable = true
    · simp only [if_pos h]
      split <;> simp [hclose]
    · simp only [if_neg h]
      exact hclose _ _ s

@[simp] theorem settings_loadGroups : (s.loadGroups server).list.settings = s.list.settings := by
  simp [loadGroups]

@[simp] theorem settings_loadBlocked : (s.loadBlocked server).list.settings = s.list.settings := by
  unfold loadBlocked
  split <;> simp

@[simp] theorem settings_loadGroupMembers (contacts : SortedSet Handle) :
    (s.loadGroupMembers server contacts).list.settings = s.list.settings := by
  unfold loadGroupMembers
  split
  · simp only
    rw [settings_foldl fun s e => by simp]
    simp
  · rfl

@[simp] theorem settings_fillChannels (contacts : SortedSet Handle) :
    (s.fillChannels server contacts).list.settings = s.list.settings := by
  simp [fillChannels]

theorem settings_loadRoster :
    (s.loadRoster server).list.settings = (s.list.capabilities, .received) := by
  unfold loadRoster
  simp only [settings_announcePending, settings_fillChannels, settings_loadGroups,
    settings_openLists]
  rfl

/-! ## What clients want -/

@[simp] theorem settings_followAddition (t : ContactTarget) (contacts : SortedSet Handle) :
    (s.followAddition server t contacts).list.settings = s.list.settings := by
  unfold followAddition
  split <;> simp

@[simp] theorem settings_followRemoval (t : ContactTarget) (contacts : SortedSet Handle) :
    (s.followRemoval server t contacts).list.settings = s.list.settings := by
  unfold followRemoval
  split <;> simp

@[simp] theorem settings_addMembers (path : ObjectPath) (contacts : SortedSet Handle)
    (message : String) :
    (s.addMembers server path contacts message).2.list.settings = s.list.settings := by
  unfold addMembers
  split
  · rfl
  · split
    · rfl
    · split
      case h_1 h => exact (congrArg (·.2.list.settings) h).symm
      case h_2 h =>
        rw [settings_followAddition]
        exact (congrArg (·.2.list.settings) h).symm

@[simp] theorem settings_removeMembers (path : ObjectPath) (contacts : SortedSet Handle) :
    (s.removeMembers server path contacts).2.list.settings = s.list.settings := by
  unfold removeMembers
  split
  · rfl
  · split
    case h_1 h => exact (congrArg (·.2.list.settings) h).symm
    case h_2 h =>
      rw [settings_followRemoval]
      exact (congrArg (·.2.list.settings) h).symm

@[simp] theorem settings_closeChannel (path : ObjectPath) :
    (s.closeChannel server path).2.list.settings = s.list.settings := by
  unfold closeChannel
  split
  · rfl
  · split
    case h_1 h => exact (congrArg (·.2.list.settings) h).symm
    case h_2 h =>
      rw [settings_groupsRemoved]
      exact (congrArg (·.2.list.settings) h).symm

@[simp] theorem settings_emulateRename (old target : String) (members : SortedSet Handle) :
    (s.emulateRename server old target members).2.list.settings = s.list.settings := by
  unfold emulateRename
  split
  case h_1 h => exact (congrArg (·.2.list.settings) h).symm
  case h_2 s₁ h =>
    have hfirst : s₁.list.settings = s.list.settings := (congrArg (·.2.list.settings) h).symm
    have hadded : (if members.isEmpty then (none, s₁)
        else s₁.call server (.addToGroup target members)).2.list.settings = s.list.settings := by
      split <;> simp [hfirst]
    simp only
    split
    · simp [hadded]
    · split
      case h_1 h => simp [(congrArg (·.2.list.settings) h).symm, hadded]
      case h_2 h => simp [(congrArg (·.2.list.settings) h).symm, hadded]

@[simp] theorem settings_callRename (rename : GroupRename) (old target : String)
    (members : SortedSet Handle) :
    (s.callRename server rename old target members).2.list.settings = s.list.settings := by
  unfold callRename
  split <;> simp

@[simp] theorem settings_renameGroup (old target : String) :
    (s.renameGroup server old target).2.list.settings = s.list.settings := by
  unfold renameGroup
  split
  · rfl
  · split
    case h_1 h => simp [(congrArg (·.2.list.settings) h).symm]
    case h_2 h => simp [(congrArg (·.2.list.settings) h).symm]

/-! ## Requests -/

@[simp] theorem settings_satisfy (t : ContactTarget) (token : RequestToken) :
    (s.satisfy t token).list.settings = s.list.settings := by
  unfold satisfy
  split
  · rfl
  · split <;> rfl

@[simp] theorem settings_announceFor (t : ContactTarget) (token : RequestToken) :
    (s.announceFor t token).list.settings = s.list.settings := by
  unfold announceFor
  split <;> rfl

@[simp] theorem settings_requestList (r : ChannelRequest) :
    (s.requestList r).2.list.settings = s.list.settings := by
  unfold requestList
  split
  · rfl
  · split
    case h_1 => rfl
    case h_2 h => simp [settings_openChannel s h]

@[simp] theorem settings_createGroupFor (name : String) (token : RequestToken) :
    (s.createGroupFor server name token).2.list.settings = s.list.settings := by
  unfold createGroupFor
  split
  · rfl
  · split
    case h_1 h => exact (congrArg (·.2.list.settings) h).symm
    case h_2 h =>
      have hcalled := (congrArg (·.2.list.settings) h).symm
      split
      case h_1 => exact hcalled
      case h_2 hopen =>
        rw [settings_announceFor, settings_openChannel _ hopen]
        exact hcalled

@[simp] theorem settings_requestGroup (r : ChannelRequest) :
    (s.requestGroup server r).2.list.settings = s.list.settings := by
  unfold requestGroup
  split
  · rfl
  · split
    · split <;> simp
    · split
      · simp
      · split
        case h_1 => rfl
        case h_2 h => simp [settings_openChannel s h]

@[simp] theorem settings_conclude (token : RequestToken) (outcome : ContactOutcome σ) :
    (conclude token outcome).list.settings = outcome.2.list.settings := by
  unfold conclude
  split <;> rfl

@[simp] theorem settings_offer (r : ChannelRequest) :
    (s.offer server r).2.list.settings = s.list.settings := by
  unfold offer
  split
  · rfl
  · split <;> simp

/-! ## What never changes -/

theorem capabilities_of_settings {s' : ContactScene σ} (h : s'.list.settings = s.list.settings) :
    s'.list.capabilities = s.list.capabilities := congrArg Prod.fst h

/-- Only news of the roster itself changes how far it has arrived. -/
theorem settings_perform {op : ContactOperation (SortedSet Handle)} (hreceived : op ≠ .received)
    (hfailed : ∀ e, op ≠ .failed e) :
    (s.perform server op).2.list.settings = s.list.settings := by
  cases op with
  | received => exact absurd rfl hreceived
  | failed e => exact absurd rfl (hfailed e)
  | legacyAdd path numbers message =>
    simp only [perform, legacyAddMembers]
    split <;> simp
  | legacyRemove path numbers =>
    simp only [perform, legacyRemoveMembers]
    split <;> simp
  | _ => simp [perform, noticed, concluded]

/-- Such news is of no interest once it is known what became of the roster. -/
theorem perform_received_of_arrived (h : s.list.roster ≠ .pending) :
    (s.perform server .received).2 = s := if_neg h

theorem perform_failed_of_arrived (h : s.list.roster ≠ .pending) (e : Error) :
    (s.perform server (.failed e)).2 = s := if_neg h

theorem settings_perform_of_arrived (h : s.list.roster ≠ .pending)
    (op : ContactOperation (SortedSet Handle)) :
    (s.perform server op).2.list.settings = s.list.settings := by
  cases op with
  | received => rw [perform_received_of_arrived server s h]
  | failed e => rw [perform_failed_of_arrived server s h]
  | _ => exact settings_perform server s (by simp) (by simp)

theorem capabilities_perform (op : ContactOperation (SortedSet Handle)) :
    (s.perform server op).2.list.capabilities = s.list.capabilities := by
  cases op with
  | received =>
    simp only [perform, noticed, rosterReceived]
    split
    · exact congrArg Prod.fst (settings_loadRoster server s)
    · rfl
  | failed e =>
    simp only [perform, noticed, rosterFailed]
    split <;> rfl
  | _ => exact s.capabilities_of_settings (settings_perform server s (by simp) (by simp))

theorem settings_disconnect :
    s.disconnect.list.settings = (s.list.capabilities, .disconnected) := by
  rw [(disconnect_eq s).1]
  rfl

end ContactScene

end Telepathy

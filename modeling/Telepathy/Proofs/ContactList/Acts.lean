import Telepathy.Proofs.ContactList.Standings
import Telepathy.Proofs.Handle.Evolution
import Telepathy.Proofs.Request.Report

set_option autoImplicit false

/-!
# What a contact list does, act by act

Every operation of a contact list is a chain of a few kinds of acts: it calls the server, it carries
out a batch on a channel, it opens, announces or closes channels, and it reports on requests. What
holds across each act holds across every operation. So no contact list speaks of the status of the
connection or of the local user, none takes a handle out of use, and whatever is done about groups
and requests moves nobody on the lists.
-/

namespace Telepathy

/-- An effect by which nothing is said of the connection's status or of the local user. -/
def Effect.IsModest : Effect → Prop
  | signal _ s => s.IsModest
  | report _ | called _ => True

namespace ContactScene

variable {σ : Type}

/-- One act of a contact list that carries out batches only on channels whose targets satisfy
`P`. -/
inductive Act (server : ContactServer σ) (P : ContactTarget → Prop) :
    ContactScene σ → ContactScene σ → Prop
  | call (s : ContactScene σ) (m : Mutation) : Act server P s (s.call server m).2
  | change (s : ContactScene σ) {t : ContactTarget} (ht : P t) (c : MembershipChange) :
      Act server P s (s.change t c)
  | opening {s s₁ : ContactScene σ} {t : ContactTarget} {requested : Bool}
      (h : s.openChannel t requested = .ok s₁) : Act server P s s₁
  | announcePending (s : ContactScene σ) : Act server P s s.announcePending
  | announceFor (s : ContactScene σ) (t : ContactTarget) (token : RequestToken) :
      Act server P s (s.announceFor t token)
  | satisfy (s : ContactScene σ) (t : ContactTarget) (token : RequestToken) :
      Act server P s (s.satisfy t token)
  | fail (s : ContactScene σ) (tokens : List RequestToken) (e : Error) :
      Act server P s (s.fail tokens e)
  | detach (s : ContactScene σ) (name : String) : Act server P s (s.detach (.group name))
  | close (s : ContactScene σ) (t : ContactTarget) (c : ContactChannel) (e : Error) :
      Act server P s (s.close t c e)
  | dismiss (s : ContactScene σ) (t : ContactTarget) (c : ContactChannel) (reason : ChangeReason)
      (e : Error) : Act server P s (s.dismiss t c reason e)
  | arrival (s : ContactScene σ) :
      Act server P s { s with list := { s.list with roster := .received } }

/-- A chain of acts. -/
inductive Acts (server : ContactServer σ) (P : ContactTarget → Prop) (s : ContactScene σ) :
    ContactScene σ → Prop
  | refl : Acts server P s s
  | tail {s₁ s₂ : ContactScene σ} (h : Acts server P s s₁) (h' : Act server P s₁ s₂) :
      Acts server P s s₂

variable {server : ContactServer σ} {P : ContactTarget → Prop} {s s₁ s₂ : ContactScene σ}

namespace Acts

theorem single (h : Act server P s s₁) : Acts server P s s₁ := Acts.refl.tail h

theorem trans (h : Acts server P s s₁) (h' : Acts server P s₁ s₂) : Acts server P s s₂ := by
  induction h' with
  | refl => exact h
  | tail _ hlast ih => exact ih.tail hlast

theorem foldl {α : Type} {f : ContactScene σ → α → ContactScene σ}
    (hf : ∀ s a, Acts server P s (f s a)) (l : List α) (s : ContactScene σ) :
    Acts server P s (l.foldl f s) :=
  List.foldl_rel_of_step (fun _ => .refl) trans hf l s

/-- What holds across every act holds across a chain. -/
theorem rel {R : ContactScene σ → ContactScene σ → Prop} (hrefl : ∀ s, R s s)
    (htrans : ∀ {s s₁ s₂}, R s s₁ → R s₁ s₂ → R s s₂)
    (hact : ∀ {s s₁}, Act server P s s₁ → R s s₁) (h : Acts server P s s₁) : R s s₁ := by
  induction h with
  | refl => exact hrefl s
  | tail _ hlast ih => exact htrans ih (hact hlast)

end Acts

/-- A call that is answered is an act. -/
theorem acts_of_call {m : Mutation} {failure : Option Error}
    (h : s.call server m = (failure, s₁)) : Acts server P s s₁ := by
  have hcall : Acts server P s (s.call server m).2 := .single (.call s m)
  rwa [h] at hcall

theorem acts_tryOpen (s : ContactScene σ) (t : ContactTarget) : Acts server P s (s.tryOpen t) := by
  unfold tryOpen
  split
  case h_1 h => exact .single (.opening h)
  case h_2 => exact .refl

/-! ## Groups -/

section Groups

variable (hP : ∀ name, P (.group name))

theorem acts_tryOpenGroups (s : ContactScene σ) (names : List String) :
    Acts server P s (s.tryOpenGroups names) :=
  .foldl (fun s name => acts_tryOpen s (.group name)) names s

theorem acts_groupsCreated (s : ContactScene σ) (names : List String) :
    Acts server P s (s.groupsCreated server names) := by
  unfold groupsCreated
  split
  · exact (acts_tryOpenGroups s _).tail (.announcePending _)
  · exact .refl

theorem acts_closeGroup (s : ContactScene σ) (name : String) :
    Acts server P s (s.closeGroup name) := by
  unfold closeGroup
  split
  · exact .refl
  · exact (Acts.single (.detach s name)).tail (.dismiss _ _ _ _ _)

theorem acts_groupsRemoved (s : ContactScene σ) (names : List String) :
    Acts server P s (s.groupsRemoved server names) := by
  unfold groupsRemoved
  split
  · exact .foldl acts_closeGroup _ s
  · exact .refl

theorem acts_abandonGroup (e : Error) (s : ContactScene σ) (name : String) :
    Acts server P s (s.abandonGroup e name) := by
  unfold abandonGroup
  split
  · exact .refl
  · exact (Acts.single (.detach s name)).tail (.close _ _ _ e)

theorem acts_closeChannel (s : ContactScene σ) (path : ObjectPath) :
    Acts server P s (s.closeChannel server path).2 := by
  unfold closeChannel
  split
  · exact .refl
  · split
    case h_1 hcall => exact acts_of_call hcall
    case h_2 hcall => exact (acts_of_call hcall).trans (acts_groupsRemoved _ _)

theorem acts_settleRequestedGroups (s : ContactScene σ) (known : List String) :
    Acts server P s (s.settleRequestedGroups server known) := by
  have hclose : ∀ (e : Error) (names : List String) (s : ContactScene σ),
      Acts server P s (names.foldl (abandonGroup e) s) :=
    fun e => .foldl (acts_abandonGroup e)
  unfold settleRequestedGroups
  split
  · exact .refl
  case h_2 first rest _ =>
    by_cases heditable : s.list.capabilities.groups.isEditable = true
    · simp only [if_pos heditable]
      have hcalled : Acts server P s (s.call server (.createGroups (first :: rest))).2 :=
        .single (.call s _)
      split
      · exact hcalled
      · exact hcalled.trans (hclose _ _ _)
    · simp only [if_neg heditable]
      exact hclose _ _ s

theorem acts_loadGroups (s : ContactScene σ) : Acts server P s (s.loadGroups server) :=
  (acts_tryOpenGroups s _).trans (acts_settleRequestedGroups _ _)

theorem acts_openLists (s : ContactScene σ) : Acts server P s s.openLists :=
  .foldl (fun s k => acts_tryOpen s (.list k)) _ s

include hP

theorem acts_moveGroup (s : ContactScene σ) (old target : String) :
    Acts server P s (s.moveGroup old target) := by
  unfold moveGroup
  split
  · exact .refl
  · have hopened : Acts server P s ((s.detach (.group old)).tryOpen (.group target)) :=
      (Acts.single (.detach s old)).trans (acts_tryOpen _ _)
    exact ((hopened.tail (.announcePending _)).tail (.change _ (hP target) _)).tail
      (.dismiss _ _ _ _ _)

theorem acts_groupRenamed (s : ContactScene σ) (old target : String) :
    Acts server P s (s.groupRenamed server old target) := by
  unfold groupRenamed
  split
  · split
    · exact acts_moveGroup hP s _ _
    · exact .refl
  · exact .refl

theorem acts_changeGroups (s : ContactScene σ) (c : MembershipChange) (names : List String) :
    Acts server P s (names.foldl (fun s name => s.change (.group name) c) s) :=
  .foldl (fun s name => .single (.change s (hP name) c)) names s

theorem acts_groupsChanged (s : ContactScene σ) (contacts : SortedSet Handle)
    (added removed : List String) :
    Acts server P s (s.groupsChanged server contacts added removed) := by
  unfold groupsChanged
  split
  · have hopened : Acts server P s
        (s.tryOpenGroups (added.filterMap server.normaliseGroup)).announcePending :=
      (acts_tryOpenGroups s _).tail (.announcePending _)
    exact (hopened.trans (acts_changeGroups hP _ _ _)).trans (acts_changeGroups hP _ _ _)
  · exact .refl

theorem acts_loadGroupMembers (s : ContactScene σ) (contacts : SortedSet Handle) :
    Acts server P s (s.loadGroupMembers server contacts) := by
  unfold loadGroupMembers
  split
  · exact (acts_tryOpenGroups s _).trans
      (.foldl (fun s (e : String × SortedSet Handle) => .single (.change s (hP e.1) _)) _ _)
  · exact .refl

theorem acts_emulateRename (s : ContactScene σ) (old target : String)
    (members : SortedSet Handle) :
    Acts server P s (s.emulateRename server old target members).2 := by
  unfold emulateRename
  split
  case h_1 hcall => exact acts_of_call hcall
  case h_2 s₁ hcall =>
    have hcreated : Acts server P s s₁ := acts_of_call hcall
    have hadded : Acts server P s₁ (if members.isEmpty then (none, s₁)
        else s₁.call server (.addToGroup target members)).2 := by
      split
      · exact .refl
      · exact .single (.call s₁ _)
    simp only
    split
    · exact (hcreated.trans hadded).trans (acts_groupsCreated _ _)
    · split
      case h_1 hcall' =>
        exact ((hcreated.trans hadded).trans (acts_of_call hcall')).trans
          (acts_groupsChanged hP _ _ _ _)
      case h_2 hcall' => exact (hcreated.trans hadded).trans (acts_of_call hcall')

theorem acts_callRename (s : ContactScene σ) (rename : GroupRename) (old target : String)
    (members : SortedSet Handle) :
    Acts server P s (s.callRename server rename old target members).2 := by
  cases rename with
  | native => exact .single (.call s _)
  | emulated => exact acts_emulateRename hP s old target members

theorem acts_renameGroup (s : ContactScene σ) (old target : String) :
    Acts server P s (s.renameGroup server old target).2 := by
  unfold renameGroup
  split
  · exact .refl
  case h_2 rename old target members _ =>
    have hcalled : Acts server P s (s.callRename server rename old target members).2 :=
      acts_callRename hP s rename old target members
    split
    case h_1 hcall =>
      rw [hcall] at hcalled
      exact hcalled
    case h_2 hcall =>
      rw [hcall] at hcalled
      exact hcalled.trans (acts_groupRenamed hP _ _ _)

end Groups

/-! ## Requests -/

theorem acts_requestList (s : ContactScene σ) (r : ChannelRequest) :
    Acts server P s (s.requestList r).2 := by
  unfold requestList
  split
  · exact .refl
  · split
    case h_1 => exact .refl
    case h_2 hopen => exact (Acts.single (.opening hopen)).tail (.satisfy _ _ _)

theorem acts_createGroupFor (s : ContactScene σ) (name : String) (token : RequestToken) :
    Acts server P s (s.createGroupFor server name token).2 := by
  unfold createGroupFor
  split
  · exact .refl
  · split
    case h_1 hcall => exact acts_of_call hcall
    case h_2 hcall =>
      split
      case h_1 => exact acts_of_call hcall
      case h_2 hopen => exact ((acts_of_call hcall).tail (.opening hopen)).tail (.announceFor _ _ _)

theorem acts_requestGroup (s : ContactScene σ) (r : ChannelRequest) :
    Acts server P s (s.requestGroup server r).2 := by
  unfold requestGroup
  split
  · exact .refl
  · split
    · split
      · exact .refl
      · exact .single (.satisfy _ _ _)
    · split
      · exact acts_createGroupFor s _ _
      · split
        case h_1 => exact .refl
        case h_2 hopen => exact (Acts.single (.opening hopen)).tail (.satisfy _ _ _)

theorem acts_conclude {token : RequestToken} {outcome : ContactOutcome σ}
    (h : Acts server P s outcome.2) : Acts server P s (conclude token outcome) := by
  unfold conclude
  split
  · exact h
  · exact h.tail (.fail _ _ _)

theorem acts_offer (s : ContactScene σ) (r : ChannelRequest) :
    Acts server P s (s.offer server r).2 := by
  unfold offer
  split
  · exact .refl
  · split
    · exact acts_conclude (acts_requestList s r)
    · exact acts_conclude (acts_requestGroup s r)
    · exact .refl
    · exact .refl
    · exact .refl

/-! ## Contacts -/

/-- Any channel may change. -/
def anyChannel (_ : ContactTarget) : Prop := True

theorem acts_change (s : ContactScene σ) (t : ContactTarget) (c : MembershipChange) :
    Acts server anyChannel s (s.change t c) := .single (.change s trivial c)

theorem acts_applyContacts (s : ContactScene σ) (changed departed : SortedSet Handle) :
    Acts server anyChannel s (s.applyContacts server changed departed) := by
  unfold applyContacts
  exact (((acts_change s _ _).trans (acts_change _ _ _)).trans
    (.foldl (fun s h => acts_change s _ _) _ _)).trans (acts_change _ _ _)

theorem acts_blockingChanged (s : ContactScene σ) (contacts : SortedSet Handle) :
    Acts server anyChannel s (s.blockingChanged server contacts) := by
  unfold blockingChanged
  split
  · exact acts_change s _ _
  · exact .refl

theorem acts_followAddition (s : ContactScene σ) (t : ContactTarget)
    (contacts : SortedSet Handle) :
    Acts server anyChannel s (s.followAddition server t contacts) := by
  unfold followAddition
  split
  · exact acts_applyContacts s _ _
  · exact acts_applyContacts s _ _
  · exact acts_applyContacts s _ _
  · exact acts_blockingChanged s _
  · exact acts_groupsChanged (fun _ => trivial) s _ _ _

theorem acts_followRemoval (s : ContactScene σ) (t : ContactTarget)
    (contacts : SortedSet Handle) :
    Acts server anyChannel s (s.followRemoval server t contacts) := by
  unfold followRemoval
  split
  · exact acts_applyContacts s _ _
  · exact acts_applyContacts s _ _
  · exact acts_applyContacts s _ _
  · exact acts_blockingChanged s _
  · exact acts_groupsChanged (fun _ => trivial) s _ _ _

theorem acts_addMembers (s : ContactScene σ) (path : ObjectPath) (contacts : SortedSet Handle)
    (message : String) :
    Acts server anyChannel s (s.addMembers server path contacts message).2 := by
  unfold addMembers
  split
  · exact .refl
  · split
    · exact .refl
    · split
      case h_1 hcall => exact acts_of_call hcall
      case h_2 hcall => exact (acts_of_call hcall).trans (acts_followAddition _ _ _)

theorem acts_removeMembers (s : ContactScene σ) (path : ObjectPath)
    (contacts : SortedSet Handle) :
    Acts server anyChannel s (s.removeMembers server path contacts).2 := by
  unfold removeMembers
  split
  · exact .refl
  · split
    case h_1 hcall => exact acts_of_call hcall
    case h_2 hcall => exact (acts_of_call hcall).trans (acts_followRemoval _ _ _)

/-! ## The roster -/

theorem acts_fillChannels (s : ContactScene σ) (contacts : SortedSet Handle) :
    Acts server anyChannel s (s.fillChannels server contacts) := by
  have hblocked : ∀ s : ContactScene σ, Acts server anyChannel s (s.loadBlocked server) := by
    intro s
    unfold loadBlocked
    split
    · exact acts_change s _ _
    · exact .refl
  exact ((acts_applyContacts s _ _).trans (hblocked _)).trans
    (acts_loadGroupMembers (fun _ => trivial) _ _)

theorem acts_rosterReceived (s : ContactScene σ) :
    Acts server anyChannel s (s.rosterReceived server) := by
  unfold rosterReceived
  split
  · exact ((((Acts.single (.arrival s)).trans (acts_openLists _)).trans (acts_loadGroups _)).trans
      (acts_fillChannels _ _)).tail (.announcePending _)
  · exact .refl

/-- Apart from the notice that there will be no roster, every operation is a chain of acts. -/
theorem acts_perform (s : ContactScene σ) {op : ContactOperation (SortedSet Handle)}
    (hop : ∀ e, op ≠ .failed e) : Acts server anyChannel s (s.perform server op).2 := by
  cases op with
  | received => exact acts_rosterReceived s
  | failed e => exact absurd rfl (hop e)
  | contactsChanged changed departed =>
    simp only [perform, noticed, contactsChanged]
    split
    · exact acts_applyContacts s changed departed
    · exact .refl
  | blockingChanged contacts => exact acts_blockingChanged s contacts
  | groupsCreated names => exact acts_groupsCreated s names
  | groupsRemoved names => exact acts_groupsRemoved s names
  | groupRenamed old target => exact acts_groupRenamed (fun _ => trivial) s old target
  | groupsChanged contacts added removed =>
    exact acts_groupsChanged (fun _ => trivial) s contacts added removed
  | addMembers path contacts message => exact acts_addMembers s path contacts message
  | removeMembers path contacts => exact acts_removeMembers s path contacts
  | closeChannel path => exact acts_closeChannel s path
  | renameGroup old target => exact acts_renameGroup (fun _ => trivial) s old target
  | legacyAdd path numbers message =>
    simp only [perform, legacyAddMembers]
    split
    · exact .refl
    · exact acts_addMembers s _ _ _
  | legacyRemove path numbers =>
    simp only [perform, legacyRemoveMembers]
    split
    · exact .refl
    · exact acts_removeMembers s _ _

/-! ## What is said of the connection -/

/-- An operation adds effects, and by none of them the contact list speaks of the connection's
status or of the local user. -/
def Discreet (s s' : ContactScene σ) : Prop :=
  ∃ effects, s'.effects = s.effects ++ effects ∧ ∀ e ∈ effects, e.IsModest

namespace Discreet

/-- Without effects nothing is said. -/
theorem of_effects (h : s₁.effects = s.effects) : s.Discreet s₁ :=
  ⟨[], by rw [h, List.append_nil], by simp⟩

theorem refl (s : ContactScene σ) : s.Discreet s := of_effects rfl

theorem trans (h : s.Discreet s₁) (h' : s₁.Discreet s₂) : s.Discreet s₂ := by
  obtain ⟨effects, heffects, hsilent⟩ := h
  obtain ⟨effects', heffects', hsilent'⟩ := h'
  refine ⟨effects ++ effects', by rw [heffects', heffects, List.append_assoc], fun e he => ?_⟩
  rcases List.mem_append.mp he with he | he
  · exact hsilent e he
  · exact hsilent' e he

end Discreet

theorem discreet_fail (s : ContactScene σ) (tokens : List RequestToken) (e : Error) :
    s.Discreet (s.fail tokens e) := by
  refine ⟨_, rfl, fun effect he => ?_⟩
  obtain ⟨token, -, rfl⟩ := List.mem_map.mp he
  trivial

theorem discreet_announceGone (s : ContactScene σ) (path : ObjectPath) :
    s.Discreet (s.emit (.signal path .closed)) :=
  ⟨_, rfl, by simp [Effect.IsModest, Signal.IsModest]⟩

theorem discreet_close (s : ContactScene σ) (t : ContactTarget) (c : ContactChannel) (e : Error) :
    s.Discreet (s.close t c e) := by
  have hreleased : s.Discreet ((s.fail c.queued e).releaseChannel t c) := discreet_fail s _ e
  unfold close
  dsimp only
  split
  · exact (hreleased.trans (discreet_announceGone _ _)).trans ⟨_, rfl, by simp [Effect.IsModest]⟩
  · exact hreleased

/-- What a batch announces is about members. -/
theorem membersChanged_of_change {m : Membership} {c : MembershipChange} {signal : Signal}
    (h : signal ∈ (m.change c).signal.toList) : ∃ moved, signal = .membersChanged moved := by
  rw [Option.mem_toList, Membership.change, Membership.announcement] at h
  dsimp only at h
  split at h
  · cases h
  · exact ⟨_, (Option.some.inj h).symm⟩

theorem isModest_change (m : Membership) (c : MembershipChange) (path : ObjectPath) :
    ∀ e ∈ (m.change c).signal.toList.map (Effect.signal path), e.IsModest := by
  intro e he
  obtain ⟨signal, hsignal, rfl⟩ := List.mem_map.mp he
  obtain ⟨moved, rfl⟩ := membersChanged_of_change hsignal
  trivial

theorem Act.discreet (h : Act server P s s₁) : s.Discreet s₁ := by
  cases h with
  | call m => exact ⟨_, rfl, by simp [Effect.IsModest]⟩
  | change ht c =>
    unfold ContactScene.change updateMembership
    split
    · exact .refl s
    case h_2 ch _ => exact ⟨_, rfl, isModest_change ch.membership c ch.path⟩
  | opening hopen =>
    rcases openChannel_eq_ok hopen with ⟨rfl, -⟩ | ⟨r, c, -, -, rfl, -⟩
    · exact .refl _
    · exact .of_effects rfl
  | announcePending =>
    unfold ContactScene.announcePending
    dsimp only
    split
    · exact .refl s
    · exact ⟨_, rfl, by simp [Effect.IsModest]⟩
  | announceFor t token =>
    unfold ContactScene.announceFor
    split
    · exact .refl s
    · exact ⟨_, rfl, by simp [Effect.IsModest]⟩
  | satisfy t token =>
    unfold ContactScene.satisfy
    split
    · exact .refl s
    · split
      · exact ⟨_, rfl, by simp [Effect.IsModest]⟩
      · exact .of_effects rfl
  | fail tokens e => exact discreet_fail s tokens e
  | detach name => exact .of_effects rfl
  | close t c e => exact discreet_close s t c e
  | dismiss t c reason e =>
    unfold ContactScene.dismiss
    exact .trans ⟨_, rfl, isModest_change c.membership _ c.path⟩ (discreet_close _ _ _ _)
  | arrival => exact .of_effects rfl

theorem Acts.discreet (h : Acts server P s s₁) : s.Discreet s₁ :=
  h.rel Discreet.refl Discreet.trans Act.discreet

theorem discreet_perform (s : ContactScene σ) (op : ContactOperation (SortedSet Handle)) :
    s.Discreet (s.perform server op).2 := by
  by_cases hop : ∃ e, op = .failed e
  · obtain ⟨e, rfl⟩ := hop
    simp only [perform, noticed, rosterFailed]
    split
    · exact discreet_fail _ _ e
    · exact .refl s
  · exact (acts_perform s fun e he => hop ⟨e, he⟩).discreet

theorem discreet_disconnect (s : ContactScene σ) : s.Discreet s.disconnect := by
  refine ⟨_, (disconnect_eq s).2.2, fun e he => ?_⟩
  obtain ⟨channel, -, rfl⟩ := List.mem_map.mp he
  trivial

/-! ## What becomes of the handle tables -/

theorem sustains_releaseChannel (s : ContactScene σ) (t : ContactTarget) (c : ContactChannel) :
    s.tables.Sustains (s.releaseChannel t c).tables :=
  (s.tables.sustains_release _).trans (HandleTables.sustains_exchangeContacts _ _ _)

theorem sustains_close (s : ContactScene σ) (t : ContactTarget) (c : ContactChannel) (e : Error) :
    s.tables.Sustains (s.close t c e).tables := by
  have hreleased := (s.fail c.queued e).sustains_releaseChannel t c
  unfold close
  dsimp only
  split <;> exact hreleased

theorem sustains_disconnect (s : ContactScene σ) : s.tables.Sustains s.disconnect.tables := by
  refine List.foldl_rel_of_step (R := fun s s' : ContactScene σ => s.tables.Sustains s'.tables)
    (fun _ => .refl _) .trans (fun s e => ?_) s.list.channels.toList
      { s with list := { s.list with roster := .disconnected, channels := .empty } }
  dsimp only
  split <;> exact s.sustains_releaseChannel e.1 e.2

/-- No act of a contact list takes a handle out of use. -/
theorem Act.sustains (h : Act server P s s₁) : s.tables.Sustains s₁.tables := by
  cases h with
  | call m => exact s.tables.sustains_exchangeContacts _ _
  | change ht c =>
    unfold ContactScene.change updateMembership
    split
    · exact .refl _
    · exact s.tables.sustains_exchangeContacts _ _
  | opening hopen =>
    rcases openChannel_eq_ok hopen with ⟨rfl, -⟩ | ⟨r, c, hensure, -, rfl, -⟩
    · exact .refl _
    · exact (HandleTables.issues_of_ensure hensure).sustains.trans (r.2.sustains_retain _)
  | announcePending =>
    unfold ContactScene.announcePending
    dsimp only
    split <;> exact .refl _
  | announceFor t token =>
    unfold ContactScene.announceFor
    split <;> exact .refl _
  | satisfy t token =>
    unfold ContactScene.satisfy
    split
    · exact .refl _
    · split <;> exact .refl _
  | fail tokens e => exact .refl _
  | detach name => exact .refl _
  | close t c e => exact s.sustains_close t c e
  | dismiss t c reason e =>
    unfold ContactScene.dismiss
    refine HandleTables.Sustains.trans ?_ (sustains_close _ t _ e)
    exact s.tables.sustains_exchangeContacts _ _
  | arrival => exact .refl _

theorem Acts.sustains (h : Acts server P s s₁) : s.tables.Sustains s₁.tables :=
  h.rel (R := fun s s' => s.tables.Sustains s'.tables) (fun _ => .refl _) .trans Act.sustains

theorem sustains_perform (s : ContactScene σ) (op : ContactOperation (SortedSet Handle)) :
    s.tables.Sustains (s.perform server op).2.tables := by
  by_cases hop : ∃ e, op = .failed e
  · obtain ⟨e, rfl⟩ := hop
    simp only [perform, noticed, rosterFailed]
    split <;> exact .refl _
  · have hacts : Acts server anyChannel s (s.perform server op).2 :=
      acts_perform s fun e he => hop ⟨e, he⟩
    exact hacts.sustains

/-! ## Who is on the lists -/

/-- Nobody moved on the lists, and no list went away. -/
structure KeepsLists (s s' : ContactScene σ) : Prop where
  hasChannel : ∀ k, s.list.HasChannel (.list k) → s'.list.HasChannel (.list k)
  standing : ∀ k h, s'.list.standing? (.list k) h = s.list.standing? (.list k) h

namespace KeepsLists

theorem refl (s : ContactScene σ) : s.KeepsLists s := ⟨fun _ => id, fun _ _ => rfl⟩

theorem trans (h : s.KeepsLists s₁) (h' : s₁.KeepsLists s₂) : s.KeepsLists s₂ :=
  ⟨fun k hk => h'.hasChannel k (h.hasChannel k hk),
    fun k x => (h'.standing k x).trans (h.standing k x)⟩

/-- It is enough that every list has a channel with the same people in it. -/
theorem of_get? (h : ∀ k, (s₁.list.channels.get? (.list k)).map (·.membership.standings) =
      (s.list.channels.get? (.list k)).map (·.membership.standings)) : s.KeepsLists s₁ := by
  have hstanding : ∀ (l : ContactList) t x, l.standing? t x =
      ((l.channels.get? t).map (·.membership.standings)).bind (·.get? x) := by
    intro l t x
    rw [ContactList.standing?, Option.bind_map]
    rfl
  refine ⟨fun k hk => ?_, fun k x => ?_⟩
  · have hsome := congrArg Option.isSome (h k)
    rw [Option.isSome_map, Option.isSome_map] at hsome
    exact hsome.trans hk
  · rw [hstanding, hstanding, h]

/-- The same, if only the channels of other targets differ. -/
theorem of_channels (h : s₁.list.channels = s.list.channels) : s.KeepsLists s₁ :=
  of_get? fun _ => by rw [h]

end KeepsLists

/-- A channel is put in place of one with the same people in it. -/
theorem keepsLists_put {t : ContactTarget} {c c' : ContactChannel}
    (hc : s.list.channels.get? t = some c)
    (hchannels : s₁.list.channels = s.list.channels.insert t c')
    (hsame : c'.membership.standings = c.membership.standings) : s.KeepsLists s₁ := by
  refine .of_get? fun k => ?_
  rw [hchannels, SortedMap.get?_insert]
  by_cases ht : .list k = t
  · subst ht
    simp [hc, hsame]
  · simp [ht]

/-- A new channel has nobody in it. -/
theorem keepsLists_open {t : ContactTarget} {c : ContactChannel} {tables : HandleTables}
    (hvacant : c.Vacant) (habsent : ¬ s.list.HasChannel t) :
    s.KeepsLists { s with tables, list := s.list.put t c } := by
  refine ⟨fun k hk => ?_, fun k x => ?_⟩
  · simp only [ContactList.hasChannel_iff, ContactList.put, SortedMap.get?_insert] at hk ⊢
    split
    · exact ⟨c, rfl⟩
    · exact hk
  · simp only [ContactList.standing?, ContactList.put, SortedMap.get?_insert]
    by_cases ht : .list k = t
    · subst ht
      have hnone : s.list.channels.get? (.list k) = none :=
        Option.not_isSome_iff_eq_none.mp habsent
      simp [hnone, hvacant.empty]
    · simp [ht]

/-- The target of a channel that stands for a group. -/
def groupsOnly (t : ContactTarget) : Prop := ∃ name, t = .group name

theorem Act.keepsLists (h : Act server groupsOnly s s₁) : s.KeepsLists s₁ := by
  cases h with
  | call m => exact .of_channels rfl
  | change ht c =>
    obtain ⟨name, rfl⟩ := ht
    exact ⟨fun k hk => (hasChannel_change s _ _ c).mpr hk,
      fun k x => standing?_change_ne (by simp) c x⟩
  | opening hopen =>
    rcases openChannel_eq_ok hopen with ⟨rfl, -⟩ | ⟨r, c, -, hvacant, rfl, habsent, -⟩
    · exact .refl _
    · exact keepsLists_open hvacant habsent
  | announcePending =>
    unfold ContactScene.announcePending
    dsimp only
    split
    · exact .refl s
    · refine .of_get? fun k => ?_
      dsimp only
      rw [SortedMap.get?_mapValues, Option.map_map]
      congr 1
      funext c
      dsimp only [Function.comp_apply]
      split <;> rfl
  | announceFor t token =>
    unfold ContactScene.announceFor
    split
    · exact .refl s
    case h_2 c hc => exact keepsLists_put hc rfl rfl
  | satisfy t token =>
    unfold ContactScene.satisfy
    split
    · exact .refl s
    case h_2 c hc =>
      split
      · exact .of_channels rfl
      · exact keepsLists_put hc rfl rfl
  | fail tokens e => exact .of_channels rfl
  | detach name =>
    refine .of_get? fun k => ?_
    simp [ContactScene.detach, ContactList.remove, SortedMap.get?_erase]
  | close t c e => exact .of_channels (by rw [list_close])
  | dismiss t c reason e => exact .of_channels (by rw [list_dismiss])
  | arrival => exact .of_channels rfl

/-- What is done about groups and requests moves nobody on the lists. -/
theorem Acts.keepsLists (h : Acts server groupsOnly s s₁) : s.KeepsLists s₁ :=
  h.rel KeepsLists.refl KeepsLists.trans Act.keepsLists

end ContactScene

end Telepathy

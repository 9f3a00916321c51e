import Telepathy.Proofs.ContactList.Acts
import Telepathy.Proofs.ContactList.Filling

set_option autoImplicit false

/-!
# What a contact list learns of its contacts

Once the roster is there, an operation concerns a contact if the server says that the contact
changed, departed, or was blocked or unblocked, and if a client has the server add or remove the
contact. Then the contact list reads anew what the server knows of the contact, and this alone
decides where the contact is on the lists from then on. Nobody else moves.
-/

namespace Telepathy

/-- What an operation finds out about a contact. -/
inductive Finding
  /-- The server has the contact in these states. -/
  | read (states : PresenceStates)
  /-- The server does not have the contact any more. -/
  | departed
deriving DecidableEq

/-- What a contact is on a list after this was found out. -/
def Finding.standing? (k : ListKind) : Finding → Option Standing
  | read states => states.standing? k
  | departed => none

/-- What a contact is on the list of blocked contacts. -/
def Standing.ofBlocked? (blocked : Bool) : Option Standing := if blocked then some .member else none

/-- What a client does to a contact. -/
inductive Touch
  /-- The contact, not yet a member of a channel, is to become one. -/
  | added (t : ContactTarget)
  /-- The contact is to leave a channel. -/
  | removed (t : ContactTarget)

namespace Touch

/-- What is found out about a contact whom the server has in these states, when it has done as the
client wanted. -/
def finding? (states : PresenceStates) : Touch → Option Finding
  | added (.list .subscribe) | added (.list .publish) | added (.list .stored)
  | removed (.list .subscribe) | removed (.list .publish) => some (.read states)
  | removed (.list .stored) => some .departed
  | added _ | removed _ => none

/-- Whether a contact is blocked, if that is read then. -/
def blocking? (blocked : Bool) : Touch → Option Bool
  | added (.list .deny) | removed (.list .deny) => some blocked
  | added _ | removed _ => none

end Touch

namespace ContactScene

variable {σ : Type} {server : ContactServer σ} {s s₁ s₂ : ContactScene σ}

/-! ## Whom an operation concerns -/

section Definitions

variable (server s) (op : ContactOperation (SortedSet Handle)) (h : Handle)

/-- A client who adds contacts to the channel at a path adds those who are not members there. -/
def adds? (path : ObjectPath) (contacts : SortedSet Handle) : Option Touch :=
  (s.list.at? path).bind fun e =>
    if h ∈ contacts ∧ h ∉ e.2.membership.members then some (.added e.1) else none

/-- A client who removes contacts from the channel at a path removes all of them. -/
def removes? (path : ObjectPath) (contacts : SortedSet Handle) : Option Touch :=
  (s.list.at? path).bind fun e => if h ∈ contacts then some (.removed e.1) else none

/-- What an operation does to `h` on behalf of a client. -/
def touch? : Option Touch :=
  match op with
  | .addMembers path contacts _ => s.adds? h path contacts
  | .removeMembers path contacts => s.removes? h path contacts
  | .legacyAdd path numbers _ =>
    (s.tables.contact.holdNumbers numbers).toOption.bind (s.adds? h path)
  | .legacyRemove path numbers =>
    (s.tables.contact.holdNumbers numbers).toOption.bind (s.removes? h path)
  | _ => none

/-- What an operation finds out about `h`, if it concerns `h`. -/
def finding? : Option Finding :=
  let (outcome, s') := s.perform server op
  let states := server.states s'.server h
  match op with
  | .received =>
    if s.list.roster = .pending ∧ h ∈ server.contacts s'.server then some (.read states) else none
  | .contactsChanged changed departed =>
    if s.list.roster ≠ .received then none
    else if h ∈ departed then some .departed
    else if h ∈ changed then some (.read states)
    else none
  | op => if outcome.isOk then (s.touch? op h).bind (Touch.finding? states) else none

/-- What an operation finds out about whether `h` is blocked. -/
def blocking? : Option Bool :=
  let (outcome, s') := s.perform server op
  let blocked := server.isBlocked s'.server h
  match op with
  | .received =>
    if s.list.roster = .pending ∧ h ∈ server.blocked s'.server then some true else none
  | .blockingChanged contacts =>
    if s.list.roster = .received ∧ h ∈ contacts then some blocked else none
  | op => if outcome.isOk then (s.touch? op h).bind (Touch.blocking? blocked) else none

end Definitions

/-! ## What comes of it -/

/-- The lists stay, and contacts move as was found out about them, and else not at all. -/
structure Learns (s s' : ContactScene σ) (found : Handle → Option Finding)
    (blocked : Handle → Option Bool) : Prop where
  hasChannel : ∀ k, s.list.HasChannel (.list k) → s'.list.HasChannel (.list k)
  contacts : ∀ k, k ≠ .deny → s.list.HasChannel (.list k) → ∀ h,
    s'.list.standing? (.list k) h =
      (found h).elim (s.list.standing? (.list k) h) (Finding.standing? k)
  deny : s.list.HasChannel (.list .deny) → ∀ h,
    s'.list.standing? (.list .deny) h =
      (blocked h).elim (s.list.standing? (.list .deny) h) Standing.ofBlocked?

/-- If the lists stay as they are, nothing was found out. -/
theorem KeepsLists.learns (h : s.KeepsLists s₁) {found : Handle → Option Finding}
    {blocked : Handle → Option Bool} (hfound : ∀ h, found h = none)
    (hblocked : ∀ h, blocked h = none) : s.Learns s₁ found blocked := by
  refine ⟨h.hasChannel, fun k _ _ x => ?_, fun _ x => ?_⟩
  · rw [hfound]
    exact h.standing k x
  · rw [hblocked]
    exact h.standing .deny x

/-- What the second step finds out overrides what the first did. -/
theorem Learns.trans {found found' : Handle → Option Finding}
    {blocked blocked' : Handle → Option Bool} (h : s.Learns s₁ found blocked)
    (h' : s₁.Learns s₂ found' blocked') :
    s.Learns s₂ (fun x => (found' x).or (found x)) fun x => (blocked' x).or (blocked x) := by
  refine ⟨fun k hk => h'.hasChannel k (h.hasChannel k hk), fun k hk hlist x => ?_,
    fun hlist x => ?_⟩
  · rw [h'.contacts k hk (h.hasChannel k hlist), h.contacts k hk hlist]
    cases found' x <;> rfl
  · rw [h'.deny (h.hasChannel _ hlist), h.deny hlist]
    cases blocked' x <;> rfl

theorem Learns.of_keepsLists {found : Handle → Option Finding} {blocked : Handle → Option Bool}
    (h : s.KeepsLists s₁) (h' : s₁.Learns s₂ found blocked) : s.Learns s₂ found blocked := by
  have hnothing : s.Learns s₁ (fun _ => none) fun _ => none :=
    h.learns (fun _ => rfl) fun _ => rfl
  simpa only [Option.or_none] using hnothing.trans h'

theorem learns_applyContacts (server : ContactServer σ) (s : ContactScene σ)
    (changed departed : SortedSet Handle) :
    s.Learns (s.applyContacts server changed departed)
      (fun h => if h ∈ departed then some .departed
        else if h ∈ changed then some (.read (server.states s.server h)) else none)
      fun _ => none := by
  refine ⟨fun k hk => ((s.moves_applyContacts changed departed).hasChannel _).mpr hk,
    fun k hk hlist h => ?_, fun _ h => ?_⟩
  · rw [standing?_applyContacts _ _ _ hk hlist]
    by_cases hd : h ∈ departed
    · simp [hd, Finding.standing?]
    · by_cases hh : h ∈ changed
      · simp [hd, hh, Finding.standing?]
      · simp [hd, hh]
  · exact standing?_applyContacts_ne _ _ _ (by decide) (by decide) (by decide) h

theorem learns_blockingChanged (server : ContactServer σ) (hreceived : s.list.roster = .received)
    (contacts : SortedSet Handle) :
    s.Learns (s.blockingChanged server contacts) (fun _ => none)
      fun h => if h ∈ contacts then some (server.isBlocked s.server h) else none := by
  rw [blockingChanged, if_pos hreceived]
  refine ⟨fun k hk => (hasChannel_change _ _ _ _).mpr hk, fun k hk _ h => ?_, fun hlist h => ?_⟩
  · exact standing?_change_ne (fun heq => hk (ContactTarget.list.inj heq)) _ h
  · rw [standing?_change_self hlist, MembershipChange.get?_ofReadings]
    by_cases hh : h ∈ contacts
    · cases hb : server.isBlocked s.server h <;>
        simp [hh, hb, Standing.ofBlocked?, Standing.ofPlace?]
    · simp [hh]

theorem server_blockingChanged (s : ContactScene σ) (contacts : SortedSet Handle) :
    (s.blockingChanged server contacts).server = s.server := by
  unfold blockingChanged
  split
  · exact (s.moves_change _ _).quiet.server
  · rfl

/-! ## Clients -/

/-- The server did to some contacts what a client wanted, and the contact list follows. -/
def Follows (server : ContactServer σ) (s s' : ContactScene σ) (contacts : SortedSet Handle)
    (touch : Touch) : Prop :=
  s.Learns s'
    (fun h => if h ∈ contacts then touch.finding? (server.states s'.server h) else none)
    fun h => if h ∈ contacts then touch.blocking? (server.isBlocked s'.server h) else none

section Follows

variable {touch : Touch}

theorem KeepsLists.follows (h : s.KeepsLists s₁) {contacts : SortedSet Handle}
    (htouch : (∀ x, x ∉ contacts) ∨
      (∀ states, touch.finding? states = none) ∧ ∀ blocked, touch.blocking? blocked = none) :
    s.Follows server s₁ contacts touch := by
  rcases htouch with hnobody | ⟨hfinding, hblocking⟩
  · exact h.learns (fun x => if_neg (hnobody x)) fun x => if_neg (hnobody x)
  · exact h.learns (fun x => by rw [hfinding, ite_self]) fun x => by rw [hblocking, ite_self]

theorem follows_reading (hfinding : ∀ states, touch.finding? states = some (.read states))
    (hblocking : ∀ blocked, touch.blocking? blocked = none) (contacts : SortedSet Handle) :
    s.Follows server (s.applyContacts server contacts .empty) contacts touch := by
  have hlearns := learns_applyContacts server s contacts .empty
  have hserver : (s.applyContacts server contacts .empty).server = s.server :=
    (s.moves_applyContacts contacts .empty).quiet.server
  unfold Follows
  rw [hserver]
  simpa only [hfinding, hblocking, ite_self, if_neg (SortedSet.not_mem_empty _)] using hlearns

theorem follows_departure (contacts : SortedSet Handle) :
    s.Follows server (s.applyContacts server .empty contacts) contacts
      (.removed (.list .stored)) := by
  have hlearns := learns_applyContacts server s .empty contacts
  simpa only [Follows, Touch.finding?, Touch.blocking?, ite_self,
    if_neg (SortedSet.not_mem_empty _)] using hlearns

theorem follows_blocking (hreceived : s.list.roster = .received)
    (hfinding : ∀ states, touch.finding? states = none)
    (hblocking : ∀ blocked, touch.blocking? blocked = some blocked)
    (contacts : SortedSet Handle) :
    s.Follows server (s.blockingChanged server contacts) contacts touch := by
  have hlearns := learns_blockingChanged server hreceived contacts
  unfold Follows
  rw [server_blockingChanged]
  simpa only [hfinding, hblocking, ite_self] using hlearns

theorem follows_followAddition (hreceived : s.list.roster = .received) (t : ContactTarget)
    (contacts : SortedSet Handle) :
    s.Follows server (s.followAddition server t contacts) contacts (.added t) := by
  cases t with
  | list k =>
    cases k with
    | deny => exact follows_blocking hreceived (fun _ => rfl) (fun _ => rfl) contacts
    | _ => exact follows_reading (fun _ => rfl) (fun _ => rfl) contacts
  | group name =>
    exact (acts_groupsChanged (fun name => ⟨name, rfl⟩) s contacts [name] []).keepsLists.follows
      (.inr ⟨fun _ => rfl, fun _ => rfl⟩)

theorem follows_followRemoval (hreceived : s.list.roster = .received) (t : ContactTarget)
    (contacts : SortedSet Handle) :
    s.Follows server (s.followRemoval server t contacts) contacts (.removed t) := by
  cases t with
  | list k =>
    cases k with
    | deny => exact follows_blocking hreceived (fun _ => rfl) (fun _ => rfl) contacts
    | stored => exact follows_departure contacts
    | _ => exact follows_reading (fun _ => rfl) (fun _ => rfl) contacts
  | group name =>
    exact (acts_groupsChanged (fun name => ⟨name, rfl⟩) s contacts [] [name]).keepsLists.follows
      (.inr ⟨fun _ => rfl, fun _ => rfl⟩)

end Follows

/-- What a client wants fails and moves nobody on the lists, or the server does it to the contacts
of a set. -/
def Concludes (server : ContactServer σ) (s : ContactScene σ) (succeeded : Bool)
    (s' : ContactScene σ) (touch? : Handle → Option Touch) : Prop :=
  succeeded = false ∧ s.KeepsLists s' ∨
    succeeded = true ∧ ∃ contacts touch,
      (∀ h, touch? h = if h ∈ contacts then some touch else none) ∧
        s.Follows server s' contacts touch

theorem Concludes.learns {succeeded : Bool} {touch? : Handle → Option Touch}
    (h : s.Concludes server succeeded s₁ touch?) :
    s.Learns s₁
      (fun h => if succeeded then
        (touch? h).bind (Touch.finding? (server.states s₁.server h)) else none)
      fun h => if succeeded then
        (touch? h).bind (Touch.blocking? (server.isBlocked s₁.server h)) else none := by
  rcases h with ⟨rfl, hkeeps⟩ | ⟨rfl, contacts, touch, htouch, hfollows⟩
  · exact hkeeps.learns (fun _ => rfl) fun _ => rfl
  · have hbind : ∀ {α : Type} (f : Touch → Option α) h,
        (touch? h).bind f = if h ∈ contacts then f touch else none := by
      intro α f h
      rw [htouch]
      split <;> rfl
    simp only [hbind, if_true]
    exact hfollows

/-- A call to the server that failed moves nobody. -/
theorem keepsLists_of_call {m : Mutation} {failure : Option Error}
    (h : s.call server m = (failure, s₁)) : s.KeepsLists s₁ :=
  (acts_of_call h : Acts server groupsOnly s s₁).keepsLists

theorem at?_of_channelAt {l : ContactList} {path : ObjectPath} {t : ContactTarget}
    {c : ContactChannel} (h : l.channelAt path = .ok (t, c)) : l.at? path = some (t, c) := by
  unfold ContactList.channelAt at h
  split at h
  case h_1 e he =>
    cases h
    exact he
  case h_2 => cases h

theorem of_checkAddition {l : ContactList} {path : ObjectPath} {contacts : SortedSet Handle}
    {t : ContactTarget} {outstanding : SortedSet Handle}
    (h : l.checkAddition path contacts = .ok (t, outstanding)) :
    l.roster = .received ∧ ∃ c, l.at? path = some (t, c) ∧
      outstanding = contacts.diff c.membership.members := by
  obtain ⟨_, hreceived, h⟩ := Except.bind_eq_ok.mp h
  obtain ⟨⟨t', c⟩, hchannel, h⟩ := Except.bind_eq_ok.mp h
  obtain ⟨outstanding', hcheck, h⟩ := Except.bind_eq_ok.mp h
  cases h
  refine ⟨received_of_checkReceived hreceived, c, at?_of_channelAt hchannel, ?_⟩
  rw [Except.mapError_eq_ok, Membership.checkAdd] at hcheck
  split at hcheck <;> cases hcheck
  rfl

theorem of_checkRemoval {l : ContactList} {path : ObjectPath} {contacts : SortedSet Handle}
    {t : ContactTarget} (h : l.checkRemoval path contacts = .ok t) :
    l.roster = .received ∧ ∃ c, l.at? path = some (t, c) := by
  obtain ⟨_, hreceived, h⟩ := Except.bind_eq_ok.mp h
  obtain ⟨⟨t', c⟩, hchannel, h⟩ := Except.bind_eq_ok.mp h
  obtain ⟨_, -, h⟩ := Except.bind_eq_ok.mp h
  cases h
  exact ⟨received_of_checkReceived hreceived, c, at?_of_channelAt hchannel⟩

variable (server s)

theorem concludes_addMembers (path : ObjectPath) (contacts : SortedSet Handle)
    (message : String) :
    s.Concludes server (s.addMembers server path contacts message).1.isOk
      (s.addMembers server path contacts message).2 (s.adds? · path contacts) := by
  unfold addMembers
  split
  case h_1 => exact .inl ⟨rfl, .refl s⟩
  case h_2 t outstanding hcheck =>
    obtain ⟨hreceived, c, hc, rfl⟩ := of_checkAddition hcheck
    have hadds : ∀ h, s.adds? h path contacts =
        if h ∈ contacts.diff c.membership.members then some (.added t) else none := by
      intro h
      simp only [adds?, hc, Option.bind_some, SortedSet.mem_diff]
    split
    case isTrue hempty =>
      exact .inr ⟨rfl, _, _, hadds,
        (KeepsLists.refl s).follows (.inl (SortedSet.isEmpty_iff.mp hempty))⟩
    case isFalse =>
      split
      case h_1 e s₁ hcall => exact .inl ⟨rfl, keepsLists_of_call hcall⟩
      case h_2 s₁ hcall =>
        have hreceived₁ : s₁.list.roster = .received :=
          (congrArg (·.2.list.roster) hcall).symm.trans hreceived
        exact .inr ⟨rfl, _, _, hadds,
          .of_keepsLists (keepsLists_of_call hcall) (follows_followAddition hreceived₁ t _)⟩

theorem concludes_removeMembers (path : ObjectPath) (contacts : SortedSet Handle) :
    s.Concludes server (s.removeMembers server path contacts).1.isOk
      (s.removeMembers server path contacts).2 (s.removes? · path contacts) := by
  unfold removeMembers
  split
  case h_1 => exact .inl ⟨rfl, .refl s⟩
  case h_2 t hcheck =>
    obtain ⟨hreceived, c, hc⟩ := of_checkRemoval hcheck
    have hremoves : ∀ h, s.removes? h path contacts =
        if h ∈ contacts then some (.removed t) else none := by
      intro h
      simp only [removes?, hc, Option.bind_some]
    split
    case h_1 e s₁ hcall => exact .inl ⟨rfl, keepsLists_of_call hcall⟩
    case h_2 s₁ hcall =>
      have hreceived₁ : s₁.list.roster = .received :=
        (congrArg (·.2.list.roster) hcall).symm.trans hreceived
      exact .inr ⟨rfl, _, _, hremoves,
        .of_keepsLists (keepsLists_of_call hcall) (follows_followRemoval hreceived₁ t _)⟩

/-- An old client names contacts by numbers, and fails if one of these is of no contact. -/
theorem concludes_legacyAdd (path : ObjectPath) (numbers : List Nat) (message : String) :
    s.Concludes server (s.perform server (.legacyAdd path numbers message)).1.isOk
      (s.perform server (.legacyAdd path numbers message)).2
      (s.touch? (.legacyAdd path numbers message)) := by
  have htouch : s.touch? (.legacyAdd path numbers message) = fun h =>
      (s.tables.contact.holdNumbers numbers).toOption.bind (s.adds? h path) := rfl
  rw [htouch]
  simp only [perform, legacyAddMembers]
  cases s.tables.contact.holdNumbers numbers with
  | error r => exact .inl ⟨rfl, .refl s⟩
  | ok contacts =>
    simp only [Except.isOk_mapError]
    exact concludes_addMembers server s path contacts message

theorem concludes_legacyRemove (path : ObjectPath) (numbers : List Nat) :
    s.Concludes server (s.perform server (.legacyRemove path numbers)).1.isOk
      (s.perform server (.legacyRemove path numbers)).2
      (s.touch? (.legacyRemove path numbers)) := by
  have htouch : s.touch? (.legacyRemove path numbers) = fun h =>
      (s.tables.contact.holdNumbers numbers).toOption.bind (s.removes? h path) := rfl
  rw [htouch]
  simp only [perform, legacyRemoveMembers]
  cases s.tables.contact.holdNumbers numbers with
  | error r => exact .inl ⟨rfl, .refl s⟩
  | ok contacts =>
    simp only [Except.isOk_mapError]
    exact concludes_removeMembers server s path contacts

/-! ## All operations -/

/-- Once the roster is there, every operation moves just those contacts whom it finds something out
about. -/
theorem learns_perform (hreceived : s.list.roster = .received)
    (op : ContactOperation (SortedSet Handle)) :
    s.Learns (s.perform server op).2 (s.finding? server op) (s.blocking? server op) := by
  have harrived : s.list.roster ≠ .pending := by
    rw [hreceived]
    decide
  have hgroup : ∀ name, groupsOnly (.group name) := fun name => ⟨name, rfl⟩
  cases op with
  | received =>
    rw [perform_received_of_arrived server s harrived]
    exact (KeepsLists.refl s).learns (fun h => if_neg fun hp => harrived hp.1)
      fun h => if_neg fun hp => harrived hp.1
  | failed e =>
    rw [perform_failed_of_arrived server s harrived]
    exact (KeepsLists.refl s).learns (fun h => rfl) fun h => rfl
  | contactsChanged changed departed =>
    have hread : (s.perform server (.contactsChanged changed departed)).2 =
        s.applyContacts server changed departed := if_pos hreceived
    have hfound : ∀ h, s.finding? server (.contactsChanged changed departed) h =
        if h ∈ departed then some .departed
        else if h ∈ changed then some (.read (server.states s.server h)) else none := by
      intro h
      simp only [finding?, hread, hreceived, ne_eq, not_true_eq_false, if_false,
        (s.moves_applyContacts changed departed).quiet.server]
    rw [hread, funext hfound]
    exact learns_applyContacts server s changed departed
  | blockingChanged contacts =>
    have hblocked : ∀ h, s.blocking? server (.blockingChanged contacts) h =
        if h ∈ contacts then some (server.isBlocked s.server h) else none := by
      intro h
      simp only [blocking?, perform, noticed, hreceived, true_and, server_blockingChanged]
    rw [funext hblocked]
    exact learns_blockingChanged server hreceived contacts
  | groupsCreated names =>
    exact (acts_groupsCreated s names : Acts server groupsOnly s _).keepsLists.learns
      (fun _ => rfl) fun _ => rfl
  | groupsRemoved names =>
    exact (acts_groupsRemoved s names : Acts server groupsOnly s _).keepsLists.learns
      (fun _ => rfl) fun _ => rfl
  | groupRenamed old target =>
    exact (acts_groupRenamed hgroup s old target).keepsLists.learns (fun _ => rfl) fun _ => rfl
  | groupsChanged contacts added removed =>
    exact (acts_groupsChanged hgroup s contacts added removed).keepsLists.learns
      (fun _ => rfl) fun _ => rfl
  | addMembers path contacts message =>
    have hconcludes := concludes_addMembers server s path contacts message
    rw [← Except.isOk_mapError _ ContactListRefusal.toError] at hconcludes
    exact hconcludes.learns
  | removeMembers path contacts =>
    have hconcludes := concludes_removeMembers server s path contacts
    rw [← Except.isOk_mapError _ ContactListRefusal.toError] at hconcludes
    exact hconcludes.learns
  | closeChannel path =>
    exact (acts_closeChannel s path : Acts server groupsOnly s _).keepsLists.learns
      (fun _ => ite_self _) fun _ => ite_self _
  | renameGroup old target =>
    exact (acts_renameGroup hgroup s old target).keepsLists.learns
      (fun _ => ite_self _) fun _ => ite_self _
  | legacyAdd path numbers message =>
    exact (concludes_legacyAdd server s path numbers message).learns
  | legacyRemove path numbers => exact (concludes_legacyRemove server s path numbers).learns

/-! ## The arrival of the roster -/

section Arrival

variable {server s} {k : ListKind}

/-- No list comes with the groups. -/
theorem hasList_of_tryOpenGroups {names : List String}
    (h : (s.tryOpenGroups names).list.HasChannel (.list k)) : s.list.HasChannel (.list k) := by
  rcases hasChannel_of_tryOpenAll ContactTarget.group h with ⟨name, -, hne⟩ | hold
  · cases hne
  · exact hold

theorem hasList_of_loadGroups (h : (s.loadGroups server).list.HasChannel (.list k)) :
    s.list.HasChannel (.list k) := by
  let s₁ := s.tryOpenGroups (s.knownGroups server)
  have hload : s.loadGroups server = s₁.settleRequestedGroups server (s₁.knownGroups server) := by
    rw [(s.opens_tryOpenGroups _).knownGroups]
    rfl
  have hsettles : s₁.Settles server _ := settles_settleRequestedGroups s₁
  rw [hload, hasChannel_of_channels (hsettles.channels _)] at h
  exact hasList_of_tryOpenGroups h.2

/-- Lists come only as far as the protocol has them. -/
theorem hasList_of_openLists (h : s.openLists.list.HasChannel (.list k)) :
    k.isSupported s.list.capabilities = true ∨ s.list.HasChannel (.list k) := by
  rcases hasChannel_of_tryOpenAll ContactTarget.list h with ⟨k', hk', heq⟩ | hold
  · cases heq
    exact .inl (List.mem_filter.mp hk').2
  · exact .inr hold

theorem hasList_of_fillChannels {contacts : SortedSet Handle}
    (h : (s.fillChannels server contacts).list.HasChannel (.list k)) :
    s.list.HasChannel (.list k) := by
  have hmoves : s.Moves ((s.applyContacts server contacts .empty).loadBlocked server) :=
    (s.moves_applyContacts contacts .empty).trans (moves_loadBlocked _)
  rw [fillChannels, loadGroupMembers] at h
  split at h
  · exact (hmoves.hasChannel _).mp
      (hasList_of_tryOpenGroups (((moves_sendAll _ _ _ _ _ _).hasChannel _).mp h))
  · exact (hmoves.hasChannel _).mp h

theorem server_announcePending (s : ContactScene σ) : s.announcePending.server = s.server := by
  unfold announcePending
  dsimp only
  split <;> rfl

theorem hasList_of_announcePending (h : s.announcePending.list.HasChannel (.list k)) :
    s.list.HasChannel (.list k) := by
  unfold announcePending at h
  dsimp only at h
  split at h
  · exact h
  · simpa only [ContactList.HasChannel, SortedMap.contains, SortedMap.get?_mapValues,
      Option.isSome_map] using h

/-- The lists that are there when the roster has arrived show everybody as the server has them. -/
theorem standing?_rosterReceived (hpending : s.list.roster = .pending)
    (hunfilled : s.list.Unfilled) (hlist : (s.rosterReceived server).list.HasChannel (.list k))
    (h : Handle) :
    (s.rosterReceived server).list.standing? (.list k) h =
      server.standing? (s.rosterReceived server).server (.list k) h := by
  let s₀ : ContactScene σ := { s with list := { s.list with roster := .received } }
  let s₁ := s₀.openLists
  let s₂ := s₁.loadGroups server
  let s₃ := s₂.fillChannels server (server.contacts s₂.server)
  have hload : s.rosterReceived server = s₃.announcePending := by
    rw [rosterReceived, if_pos hpending]
    rfl
  have hannounce : s₃.KeepsLists s₃.announcePending :=
    (Acts.single (.announcePending s₃) : Acts server groupsOnly _ _).keepsLists
  have hserver : s₃.announcePending.server = s₂.server :=
    (server_announcePending s₃).trans (s₂.local_fillChannels _).server
  have hgroups : s₁.KeepsLists s₂ := (acts_loadGroups s₁ : Acts server groupsOnly _ _).keepsLists
  have hnobody : ∀ k h, s₂.list.standing? (.list k) h = none := by
    intro k h
    rw [hgroups.standing, s₀.opens_openLists.standing]
    exact hunfilled.standing? hpending _ h
  rw [hload] at hlist ⊢
  have hlist₂ : s₂.list.HasChannel (.list k) :=
    hasList_of_fillChannels (hasList_of_announcePending hlist)
  have hcan : s₂.list.HasChannel (.list .deny) → s₂.list.capabilities.canBlock = true := by
    intro hdeny
    have hsame : s₂.list.capabilities = s.list.capabilities := congrArg Prod.fst
      ((settings_loadGroups server s₁).trans (settings_openLists s₀))
    rw [hsame]
    rcases hasList_of_openLists (hasList_of_loadGroups hdeny) with hsupported | hold
    · exact hsupported
    · exact hunfilled.isSupported hpending hold
  rw [hannounce.standing, hserver]
  exact standing?_fillChannels_list hnobody hcan hlist₂ h

/-- Whoever the server has among its contacts then is found in their states, and nobody else. -/
theorem standing?_arrival (hpending : s.list.roster = .pending) (hunfilled : s.list.Unfilled)
    (hk : k ≠ .deny) (hlist : (s.perform server .received).2.list.HasChannel (.list k))
    (h : Handle) :
    (s.perform server .received).2.list.standing? (.list k) h =
      (s.finding? server .received h).bind (Finding.standing? k) := by
  refine (standing?_rosterReceived hpending hunfilled hlist h).trans ?_
  have hfinding : s.finding? server .received h =
      if h ∈ server.contacts (s.rosterReceived server).server then
        some (.read (server.states (s.rosterReceived server).server h)) else none := by
    simp only [finding?, perform, noticed, hpending, true_and]
  rw [hfinding]
  by_cases hh : h ∈ server.contacts (s.rosterReceived server).server
  · rw [if_pos hh, Option.bind_some, Finding.standing?]
    cases k with
    | deny => exact absurd rfl hk
    | _ => exact if_pos hh
  · rw [if_neg hh, Option.bind_none]
    cases k with
    | deny => exact absurd rfl hk
    | _ => exact if_neg hh

theorem standing?_arrival_deny (hpending : s.list.roster = .pending)
    (hunfilled : s.list.Unfilled)
    (hlist : (s.perform server .received).2.list.HasChannel (.list .deny)) (h : Handle) :
    (s.perform server .received).2.list.standing? (.list .deny) h =
      (s.blocking? server .received h).bind Standing.ofBlocked? := by
  refine (standing?_rosterReceived hpending hunfilled hlist h).trans ?_
  simp only [blocking?, perform, noticed, hpending, true_and, ContactServer.standing?]
  split <;> rfl

end Arrival

end ContactScene

end Telepathy

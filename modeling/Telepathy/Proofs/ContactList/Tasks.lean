import Telepathy.Proofs.ContactList.Filling
import Telepathy.Proofs.ContactList.Settings

set_option autoImplicit false

/-!
# What a contact list does, and when

The steps of which the operations of a contact list are made, each under the circumstances in which
it is taken: lists are opened if the protocol has them, and groups if it has groups, under names as
the server spells them; a batch on a group only lets contacts in or out. So what is to be shown of
the channels of a contact list is shown of these steps, and most of it from where a channel comes
from that is there after a step. Requests are not among the operations.
-/

namespace Telepathy

/-- A name as the server spells it. -/
def ContactServer.Spells {σ : Type} (server : ContactServer σ) (name : String) : Prop :=
  ∃ given, server.normaliseGroup given = some name

/-- What is fixed when a contact list is built: the path above those of its channels, and how many
requests may wait. -/
def ContactList.fixtures (l : ContactList) : ObjectPath × Nat := (l.basePath, l.queueLimit)

/-- What is done about groups only depends on the settings. -/
theorem ContactList.followsGroups_of_settings {l l' : ContactList}
    (h : l'.settings = l.settings) : l'.followsGroups = l.followsGroups := by
  obtain ⟨hcapabilities, hroster⟩ := Prod.mk.inj h
  rw [followsGroups, followsGroups, hcapabilities, hroster]

/-- A target that a channel may be opened for: a list that the protocol has, or, while groups are
followed, a group under a name as the server spells it. -/
def ContactTarget.Openable {σ : Type} (server : ContactServer σ) (l : ContactList) :
    ContactTarget → Prop
  | list k => k.isSupported l.capabilities = true
  | group name => l.followsGroups = true ∧ server.Spells name

/-- A target that a channel may be opened for is one that the protocol has. -/
theorem ContactTarget.Openable.isSupported {σ : Type} {server : ContactServer σ} {l : ContactList}
    {t : ContactTarget} (h : t.Openable server l) : t.isSupported l.capabilities = true := by
  cases t with
  | list k => exact h
  | group name => exact ContactList.isSupported_of_followsGroups h.1

/-- Nobody waits who is in the batch: they are all let in or out. -/
def MembershipChange.Settles (b : MembershipChange) : Prop :=
  ∀ h p, b.places.get? h = some p → p = .member ∨ p = .outside

theorem MembershipChange.Settles.ofSet (contacts : SortedSet Handle) {p : Place}
    (hp : p = .member ∨ p = .outside) (w : Provenance) :
    (MembershipChange.ofSet contacts p w).Settles := by
  intro h p' hp'
  rw [get?_ofSet] at hp'
  split at hp'
  · exact Option.some.inj hp' ▸ hp
  · cases hp'

namespace ContactScene

variable {σ : Type}

/-- One step of an operation. -/
inductive Task (server : ContactServer σ) : ContactScene σ → ContactScene σ → Prop
  | call (s : ContactScene σ) (m : Mutation) : Task server s (s.call server m).2
  | changeList (s : ContactScene σ) (k : ListKind) (b : MembershipChange) :
      Task server s (s.change (.list k) b)
  | changeGroup (s : ContactScene σ) (name : String) (contacts : SortedSet Handle) {p : Place}
      (hp : p = .member ∨ p = .outside) (w : Provenance) :
      Task server s (s.change (.group name) (.ofSet contacts p w))
  | openList {s s₁ : ContactScene σ} {k : ListKind}
      (hsupported : k.isSupported s.list.capabilities = true)
      (h : s.openChannel (.list k) false = .ok s₁) : Task server s s₁
  | openGroup {s s₁ : ContactScene σ} {name : String} (hfollows : s.list.followsGroups = true)
      (hname : server.Spells name) (h : s.openChannel (.group name) false = .ok s₁) :
      Task server s s₁
  | announcePending (s : ContactScene σ) : Task server s s.announcePending
  | detach (s : ContactScene σ) (name : String) : Task server s (s.detach (.group name))
  | close (s : ContactScene σ) (t : ContactTarget) (c : ContactChannel) (e : Error) :
      Task server s (s.close t c e)
  | dismiss (s : ContactScene σ) (t : ContactTarget) (c : ContactChannel) (reason : ChangeReason)
      (e : Error) : Task server s (s.dismiss t c reason e)
  | arrival (s : ContactScene σ) (hpending : s.list.roster = .pending) :
      Task server s { s with list := { s.list with roster := .received } }
  | lament (s : ContactScene σ) (hpending : s.list.roster = .pending) (e : Error) :
      Task server s (s.rosterFailed e)

/-- A chain of steps. -/
inductive Tasks (server : ContactServer σ) (s : ContactScene σ) : ContactScene σ → Prop
  | refl : Tasks server s s
  | tail {s₁ s₂ : ContactScene σ} (h : Tasks server s s₁) (h' : Task server s₁ s₂) :
      Tasks server s s₂

variable {server : ContactServer σ} {s s₁ s₂ : ContactScene σ}

namespace Tasks

theorem single (h : Task server s s₁) : Tasks server s s₁ := Tasks.refl.tail h

theorem trans (h : Tasks server s s₁) (h' : Tasks server s₁ s₂) : Tasks server s s₂ := by
  induction h' with
  | refl => exact h
  | tail _ hlast ih => exact ih.tail hlast

theorem foldl {α : Type} {f : ContactScene σ → α → ContactScene σ}
    (hf : ∀ s a, Tasks server s (f s a)) (l : List α) (s : ContactScene σ) :
    Tasks server s (l.foldl f s) :=
  List.foldl_rel_of_step (fun _ => .refl) trans hf l s

/-- What holds across every step holds across a chain. -/
theorem rel {R : ContactScene σ → ContactScene σ → Prop} (hrefl : ∀ s, R s s)
    (htrans : ∀ {s s₁ s₂}, R s s₁ → R s₁ s₂ → R s s₂)
    (htask : ∀ {s s₁}, Task server s s₁ → R s s₁) (h : Tasks server s s₁) : R s s₁ := by
  induction h with
  | refl => exact hrefl s
  | tail _ hlast ih => exact htrans ih (htask hlast)

/-- What every step keeps is kept by a chain. -/
theorem keeps {I : ContactScene σ → Prop} (htask : ∀ {s s₁}, Task server s s₁ → I s → I s₁)
    (h : Tasks server s s₁) (hs : I s) : I s₁ :=
  h.rel (R := fun s s' => I s → I s') (fun _ => id) (fun h h' hs => h' (h hs)) htask hs

end Tasks

theorem tasks_of_call {m : Mutation} {failure : Option Error}
    (h : s.call server m = (failure, s₁)) : Tasks server s s₁ := by
  have hcall : Tasks server s (s.call server m).2 := .single (.call s m)
  rwa [h] at hcall

/-! ## Groups -/

/-- Groups are opened one after the other, and the list follows groups all the while. -/
theorem tasks_tryOpenGroups {names : List String} (hfollows : s.list.followsGroups = true)
    (hnames : ∀ name ∈ names, server.Spells name) : Tasks server s (s.tryOpenGroups names) := by
  induction names generalizing s with
  | nil => exact .refl
  | cons name names ih =>
    have hfirst : Tasks server s (s.tryOpen (.group name)) := by
      unfold tryOpen
      split
      case h_1 h => exact .single (.openGroup hfollows (hnames name List.mem_cons_self) h)
      case h_2 => exact .refl
    refine hfirst.trans (ih ?_ fun n hn => hnames n (List.mem_cons_of_mem _ hn))
    rw [ContactList.followsGroups_of_settings (settings_tryOpen s (.group name)), hfollows]

/-- What the server says of groups speaks of names as the server spells them. -/
theorem spells_of_filterMap {given : List String} {name : String}
    (h : name ∈ given.filterMap server.normaliseGroup) : server.Spells name := by
  obtain ⟨g, -, hg⟩ := List.mem_filterMap.mp h
  exact ⟨g, hg⟩

theorem tasks_groupsCreated (s : ContactScene σ) (names : List String) :
    Tasks server s (s.groupsCreated server names) := by
  unfold groupsCreated
  split
  case isTrue hfollows =>
    exact (tasks_tryOpenGroups hfollows fun _ => spells_of_filterMap).tail (.announcePending _)
  case isFalse => exact .refl

theorem tasks_closeGroup (s : ContactScene σ) (name : String) :
    Tasks server s (s.closeGroup name) := by
  unfold closeGroup
  split
  · exact .refl
  · exact (Tasks.single (.detach s name)).tail (.dismiss _ _ _ _ _)

theorem tasks_groupsRemoved (s : ContactScene σ) (names : List String) :
    Tasks server s (s.groupsRemoved server names) := by
  unfold groupsRemoved
  split
  · exact .foldl tasks_closeGroup _ s
  · exact .refl

theorem tasks_moveGroup (s : ContactScene σ) {old target : String}
    (hfollows : s.list.followsGroups = true) (htarget : server.Spells target) :
    Tasks server s (s.moveGroup old target) := by
  unfold moveGroup
  split
  · exact .refl
  · have hopened : Tasks server s ((s.detach (.group old)).tryOpenGroups [target]) :=
      (Tasks.single (.detach s old)).trans
        (tasks_tryOpenGroups hfollows fun name hname => List.mem_singleton.mp hname ▸ htarget)
    exact ((hopened.tail (.announcePending _)).tail (.changeGroup _ _ _ (.inl rfl) _)).tail
      (.dismiss _ _ _ _ _)

theorem tasks_groupRenamed (s : ContactScene σ) (old target : String) :
    Tasks server s (s.groupRenamed server old target) := by
  unfold groupRenamed
  split
  case isTrue hfollows =>
    split
    case h_1 htarget => exact tasks_moveGroup s hfollows ⟨_, htarget⟩
    case h_2 => exact .refl
  case isFalse => exact .refl

theorem tasks_groupsChanged (s : ContactScene σ) (contacts : SortedSet Handle)
    (added removed : List String) :
    Tasks server s (s.groupsChanged server contacts added removed) := by
  have hplaced : ∀ {p : Place}, p = .member ∨ p = .outside → ∀ (names : List String) s,
      Tasks server s (names.foldl (fun s name =>
        s.change (.group name) (.ofSet contacts p .unstated)) s) :=
    fun hp => .foldl fun s name => .single (.changeGroup s name contacts hp _)
  unfold groupsChanged
  split
  case isTrue h =>
    exact (((tasks_tryOpenGroups h.1 fun _ => spells_of_filterMap).tail
      (.announcePending _)).trans (hplaced (.inl rfl) _ _)).trans (hplaced (.inr rfl) _ _)
  case isFalse => exact .refl

theorem tasks_emulateRename (s : ContactScene σ) (old target : String)
    (members : SortedSet Handle) :
    Tasks server s (s.emulateRename server old target members).2 := by
  unfold emulateRename
  split
  case h_1 hcall => exact tasks_of_call hcall
  case h_2 s₁ hcall =>
    have hadded : Tasks server s (if members.isEmpty then (none, s₁)
        else s₁.call server (.addToGroup target members)).2 := by
      split
      · exact tasks_of_call hcall
      · exact (tasks_of_call hcall).tail (.call s₁ _)
    simp only
    split
    · exact hadded.trans (tasks_groupsCreated _ _)
    · split
      case h_1 hcall' =>
        exact (hadded.trans (tasks_of_call hcall')).trans (tasks_groupsChanged _ _ _ _)
      case h_2 hcall' => exact hadded.trans (tasks_of_call hcall')

theorem tasks_renameGroup (s : ContactScene σ) (old target : String) :
    Tasks server s (s.renameGroup server old target).2 := by
  have hcalled : ∀ rename old target members,
      Tasks server s (s.callRename server rename old target members).2 := by
    intro rename old target members
    cases rename with
    | native => exact .single (.call s _)
    | emulated => exact tasks_emulateRename s old target members
  unfold renameGroup
  split
  · exact .refl
  case h_2 rename old target members _ =>
    have hdone := hcalled rename old target members
    split
    case h_1 hcall =>
      rw [hcall] at hdone
      exact hdone
    case h_2 hcall =>
      rw [hcall] at hdone
      exact hdone.trans (tasks_groupRenamed _ _ _)

theorem tasks_closeChannel (s : ContactScene σ) (path : ObjectPath) :
    Tasks server s (s.closeChannel server path).2 := by
  unfold closeChannel
  split
  · exact .refl
  · split
    case h_1 hcall => exact tasks_of_call hcall
    case h_2 hcall => exact (tasks_of_call hcall).trans (tasks_groupsRemoved _ _)

/-! ## Contacts -/

theorem tasks_applyContacts (s : ContactScene σ) (changed departed : SortedSet Handle) :
    Tasks server s (s.applyContacts server changed departed) := by
  unfold applyContacts
  exact ((((Tasks.single (.changeList s _ _)).tail (.changeList _ _ _)).trans
    (.foldl (fun s h => .single (.changeList s _ _)) _ _))).tail (.changeList _ _ _)

theorem tasks_blockingChanged (s : ContactScene σ) (contacts : SortedSet Handle) :
    Tasks server s (s.blockingChanged server contacts) := by
  unfold blockingChanged
  split
  · exact .single (.changeList s _ _)
  · exact .refl

theorem tasks_followAddition (s : ContactScene σ) (t : ContactTarget)
    (contacts : SortedSet Handle) :
    Tasks server s (s.followAddition server t contacts) := by
  unfold followAddition
  split
  · exact tasks_applyContacts s _ _
  · exact tasks_applyContacts s _ _
  · exact tasks_applyContacts s _ _
  · exact tasks_blockingChanged s _
  · exact tasks_groupsChanged s _ _ _

theorem tasks_followRemoval (s : ContactScene σ) (t : ContactTarget)
    (contacts : SortedSet Handle) :
    Tasks server s (s.followRemoval server t contacts) := by
  unfold followRemoval
  split
  · exact tasks_applyContacts s _ _
  · exact tasks_applyContacts s _ _
  · exact tasks_applyContacts s _ _
  · exact tasks_blockingChanged s _
  · exact tasks_groupsChanged s _ _ _

theorem tasks_addMembers (s : ContactScene σ) (path : ObjectPath) (contacts : SortedSet Handle)
    (message : String) : Tasks server s (s.addMembers server path contacts message).2 := by
  unfold addMembers
  split
  · exact .refl
  · split
    · exact .refl
    · split
      case h_1 hcall => exact tasks_of_call hcall
      case h_2 hcall => exact (tasks_of_call hcall).trans (tasks_followAddition _ _ _)

theorem tasks_removeMembers (s : ContactScene σ) (path : ObjectPath)
    (contacts : SortedSet Handle) :
    Tasks server s (s.removeMembers server path contacts).2 := by
  unfold removeMembers
  split
  · exact .refl
  · split
    case h_1 hcall => exact tasks_of_call hcall
    case h_2 hcall => exact (tasks_of_call hcall).trans (tasks_followRemoval _ _ _)

/-! ## The roster -/

/-- Of the lists only those are opened that the protocol has. -/
theorem tasks_openLists (s : ContactScene σ) : Tasks server s s.openLists := by
  have hopen : ∀ (kinds : List ListKind) (s : ContactScene σ),
      (∀ k ∈ kinds, k.isSupported s.list.capabilities = true) →
        Tasks server s (kinds.foldl (fun s k => s.tryOpen (.list k)) s) := by
    intro kinds
    induction kinds with
    | nil => exact fun _ _ => .refl
    | cons k kinds ih =>
      intro s hkinds
      have hfirst : Tasks server s (s.tryOpen (.list k)) := by
        unfold tryOpen
        split
        case h_1 h => exact .single (.openList (hkinds k List.mem_cons_self) h)
        case h_2 => exact .refl
      refine hfirst.trans (ih _ fun k' hk' => ?_)
      rw [(Prod.mk.inj (settings_tryOpen s (.list k))).1]
      exact hkinds k' (List.mem_cons_of_mem _ hk')
  exact hopen _ s fun k hk => (List.mem_filter.mp hk).2

theorem tasks_settleRequestedGroups (s : ContactScene σ) (known : List String) :
    Tasks server s (s.settleRequestedGroups server known) := by
  have habandon : ∀ (e : Error) (names : List String) (s : ContactScene σ),
      Tasks server s (names.foldl (abandonGroup e) s) := by
    refine fun e => .foldl fun s name => ?_
    unfold abandonGroup
    split
    · exact .refl
    · exact (Tasks.single (.detach s name)).tail (.close _ _ _ e)
  unfold settleRequestedGroups
  split
  · exact .refl
  case h_2 first rest _ =>
    by_cases heditable : s.list.capabilities.groups.isEditable = true
    · simp only [if_pos heditable]
      have hcalled : Tasks server s (s.call server (.createGroups (first :: rest))).2 :=
        .single (.call s _)
      split
      · exact hcalled
      · exact hcalled.trans (habandon _ _ _)
    · simp only [if_neg heditable]
      exact habandon _ _ s

/-- A list with groups follows them once the roster is there. -/
theorem followsGroups_of_received {l : ContactList} (hreceived : l.roster = .received)
    (hgroups : l.capabilities.groups.isSupported = true) : l.followsGroups = true := by
  simp [ContactList.followsGroups, hgroups, hreceived]

theorem tasks_loadGroups (hreceived : s.list.roster = .received) :
    Tasks server s (s.loadGroups server) := by
  refine Tasks.trans ?_ (tasks_settleRequestedGroups _ _)
  unfold knownGroups
  split
  case isTrue hgroups =>
    exact tasks_tryOpenGroups (followsGroups_of_received hreceived hgroups) fun _ =>
      spells_of_filterMap
  case isFalse => exact .refl

theorem tasks_loadGroupMembers (hreceived : s.list.roster = .received)
    (contacts : SortedSet Handle) : Tasks server s (s.loadGroupMembers server contacts) := by
  unfold loadGroupMembers
  split
  case isTrue hgroups =>
    have hspelled : ∀ name ∈ (groupMembers server s.server contacts).keys, server.Spells name := by
      intro name hname
      obtain ⟨h, -, hnamed⟩ := (mem_keys_groupMembers _ _ _).mp hname
      exact spells_of_filterMap hnamed
    exact (tasks_tryOpenGroups (followsGroups_of_received hreceived hgroups) hspelled).trans
      (.foldl (fun s (e : String × SortedSet Handle) =>
        .single (.changeGroup s e.1 e.2 (.inl rfl) _)) _ _)
  case isFalse => exact .refl

theorem tasks_fillChannels (hreceived : s.list.roster = .received) (contacts : SortedSet Handle) :
    Tasks server s (s.fillChannels server contacts) := by
  have hblocked : ∀ s : ContactScene σ, Tasks server s (s.loadBlocked server) := by
    intro s
    unfold loadBlocked
    split
    · exact .single (.changeList s _ _)
    · exact .refl
  refine ((tasks_applyContacts s _ _).trans (hblocked _)).trans (tasks_loadGroupMembers ?_ _)
  have hsettings : ((s.applyContacts server contacts .empty).loadBlocked server).list.settings =
      s.list.settings := by simp
  rw [(Prod.mk.inj hsettings).2, hreceived]

theorem tasks_rosterReceived (s : ContactScene σ) :
    Tasks server s (s.rosterReceived server) := by
  unfold rosterReceived
  split
  case isTrue hpending =>
    have harrived : Tasks server s { s with list := { s.list with roster := .received } } :=
      .single (.arrival s hpending)
    have hopened : ({ s with list := { s.list with roster := .received } } :
        ContactScene σ).openLists.list.roster = .received :=
      (Prod.mk.inj (settings_openLists _)).2
    have hloaded := (Prod.mk.inj (settings_loadGroups server
      (openLists { s with list := { s.list with roster := .received } }))).2
    exact (((harrived.trans (tasks_openLists _)).trans (tasks_loadGroups hopened)).trans
      (tasks_fillChannels (hloaded.trans hopened) _)).tail (.announcePending _)
  case isFalse => exact .refl

/-- Every operation is a chain of steps. -/
theorem tasks_perform (s : ContactScene σ) (op : ContactOperation (SortedSet Handle)) :
    Tasks server s (s.perform server op).2 := by
  cases op with
  | received => exact tasks_rosterReceived s
  | failed e =>
    by_cases hpending : s.list.roster = .pending
    · exact .single (.lament s hpending e)
    · simp only [perform, noticed, rosterFailed, if_neg hpending]
      exact .refl
  | contactsChanged changed departed =>
    simp only [perform, noticed, contactsChanged]
    split
    · exact tasks_applyContacts s changed departed
    · exact .refl
  | blockingChanged contacts => exact tasks_blockingChanged s contacts
  | groupsCreated names => exact tasks_groupsCreated s names
  | groupsRemoved names => exact tasks_groupsRemoved s names
  | groupRenamed old target => exact tasks_groupRenamed s old target
  | groupsChanged contacts added removed => exact tasks_groupsChanged s contacts added removed
  | addMembers path contacts message => exact tasks_addMembers s path contacts message
  | removeMembers path contacts => exact tasks_removeMembers s path contacts
  | closeChannel path => exact tasks_closeChannel s path
  | renameGroup old target => exact tasks_renameGroup s old target
  | legacyAdd path numbers message =>
    simp only [perform, legacyAddMembers]
    split
    · exact .refl
    · exact tasks_addMembers s _ _ _
  | legacyRemove path numbers =>
    simp only [perform, legacyRemoveMembers]
    split
    · exact .refl
    · exact tasks_removeMembers s _ _

/-! ## What a step does to the channels -/

/-- The channels after a batch on one of them. -/
theorem get?_change (s : ContactScene σ) (t t' : ContactTarget) (b : MembershipChange) :
    (s.change t b).list.channels.get? t' =
      if t' = t then (s.list.channels.get? t).map fun c =>
        { c with membership := (c.membership.change b).membership }
      else s.list.channels.get? t' := by
  unfold change updateMembership
  split
  case h_1 hnone =>
    split
    case isTrue heq => rw [heq, hnone, Option.map_none]
    case isFalse => rfl
  case h_2 c hc => simp only [ContactList.put, SortedMap.get?_insert, hc, Option.map_some]

/-- Where a channel comes from that is there after a step: it was there before, and was at most
announced or given up, or a batch was applied to it, or it is new. -/
inductive Origin (server : ContactServer σ) (s : ContactScene σ) (t : ContactTarget) :
    ContactChannel → Prop
  | kept {c c' : ContactChannel} (hc : s.list.channels.get? t = some c)
      (hsame : c'.membership = c.membership) (hqueue : c'.queued = [] ∨ c'.queued = c.queued) :
      Origin server s t c'
  | changed {c : ContactChannel} {b : MembershipChange} (hc : s.list.channels.get? t = some c)
      (hgroup : ∀ name, t = .group name → b.Settles) :
      Origin server s t { c with membership := (c.membership.change b).membership }
  | opened {h : Handle} {requested : Bool} (hopenable : t.Openable server s.list) :
      Origin server s t (s.list.freshChannel t h requested)

/-- A channel that was left alone. -/
theorem Origin.same {t : ContactTarget} {c : ContactChannel}
    (hc : s.list.channels.get? t = some c) : Origin server s t c :=
  .kept hc rfl (.inr rfl)

theorem origin_openChannel {t t' : ContactTarget} {requested : Bool} {c' : ContactChannel}
    (hopenable : t.Openable server s.list) (hopen : s.openChannel t requested = .ok s₁)
    (hc' : s₁.list.channels.get? t' = some c') :
    Origin server s t' c' := by
  obtain ⟨rfl, -⟩ | ⟨-, r, -, rfl⟩ := openChannel_cases hopen
  · exact .same hc'
  · simp only [ContactList.put, SortedMap.get?_insert] at hc'
    split at hc'
    case isTrue heq =>
      cases hc'
      subst heq
      exact .opened hopenable
    case isFalse => exact .same hc'

theorem origin_change {t t' : ContactTarget} {b : MembershipChange} {c' : ContactChannel}
    (hgroup : ∀ name, t = .group name → b.Settles)
    (hc' : (s.change t b).list.channels.get? t' = some c') : Origin server s t' c' := by
  rw [get?_change] at hc'
  split at hc'
  case isTrue heq =>
    obtain ⟨c, hc, rfl⟩ := Option.map_eq_some_iff.mp hc'
    subst heq
    exact .changed hc hgroup
  case isFalse => exact .same hc'

/-- No step does anything else to a channel. -/
theorem Task.origin (htask : Task server s s₁) {t : ContactTarget} {c' : ContactChannel}
    (hc' : s₁.list.channels.get? t = some c') : Origin server s t c' := by
  cases htask with
  | call m => exact .same hc'
  | changeList k b => exact origin_change (fun _ => ContactTarget.noConfusion) hc'
  | changeGroup name contacts hp w =>
    exact origin_change (fun _ _ => .ofSet contacts hp w) hc'
  | openList hsupported hopen =>
    exact origin_openChannel (t := .list _) hsupported hopen hc'
  | openGroup hfollows hname hopen =>
    exact origin_openChannel (t := .group _) ⟨hfollows, hname⟩ hopen hc'
  | announcePending =>
    unfold ContactScene.announcePending at hc'
    dsimp only at hc'
    split at hc'
    · exact .same hc'
    · rw [SortedMap.get?_mapValues] at hc'
      obtain ⟨c, hc, rfl⟩ := Option.map_eq_some_iff.mp hc'
      split
      · exact .same hc
      · exact .kept hc rfl (.inl rfl)
  | detach name =>
    simp only [ContactScene.detach, ContactList.remove, SortedMap.get?_erase] at hc'
    split at hc'
    · cases hc'
    · exact .same hc'
  | close u c e => exact .same (list_close u c e ▸ hc')
  | dismiss u c reason e => exact .same (list_dismiss u c reason e ▸ hc')
  | arrival hpending => exact .same hc'
  | lament hpending e =>
    rw [rosterFailed, if_pos hpending] at hc'
    simp only [fail, SortedMap.get?_mapValues] at hc'
    obtain ⟨c, hc, rfl⟩ := Option.map_eq_some_iff.mp hc'
    exact .kept hc rfl (.inl rfl)

/-- No step touches the settings, other than that the state of the roster becomes known. -/
theorem Task.settings (htask : Task server s s₁) :
    s₁.list.settings = s.list.settings ∨
      s₁.list.capabilities = s.list.capabilities ∧ s₁.list.roster ≠ .disconnected := by
  cases htask with
  | call m => exact .inl rfl
  | changeList k b => exact .inl (settings_change _ _ _)
  | changeGroup name contacts hp w => exact .inl (settings_change _ _ _)
  | openList hsupported hopen => exact .inl (settings_openChannel _ hopen)
  | openGroup hfollows hname hopen => exact .inl (settings_openChannel _ hopen)
  | announcePending => exact .inl (settings_announcePending _)
  | detach name => exact .inl rfl
  | close t c e => exact .inl (by rw [list_close])
  | dismiss t c reason e => exact .inl (by rw [list_dismiss])
  | arrival hpending => exact .inr ⟨rfl, RosterState.noConfusion⟩
  | lament hpending e =>
    rw [rosterFailed, if_pos hpending]
    exact .inr ⟨rfl, RosterState.noConfusion⟩

theorem Task.capabilities (htask : Task server s s₁) :
    s₁.list.capabilities = s.list.capabilities :=
  htask.settings.elim (fun h => (Prod.mk.inj h).1) And.left

/-- Once groups are followed no step ends that. -/
theorem Task.followsGroups (htask : Task server s s₁) (h : s.list.followsGroups = true) :
    s₁.list.followsGroups = true := by
  rcases htask.settings with hsettings | ⟨hcapabilities, hconnected⟩
  · exact (ContactList.followsGroups_of_settings hsettings).trans h
  · rw [ContactList.followsGroups, Bool.and_eq_true] at h ⊢
    rw [hcapabilities]
    exact ⟨h.1, bne_iff_ne.mpr hconnected⟩

/-! ## What no step changes -/

theorem fixtures_openChannel {t : ContactTarget} {requested : Bool}
    (hopen : s.openChannel t requested = .ok s₁) : s₁.list.fixtures = s.list.fixtures := by
  obtain ⟨rfl, -⟩ | ⟨-, r, -, rfl⟩ := openChannel_cases hopen
  · rfl
  · rfl

theorem fixtures_change (s : ContactScene σ) (t : ContactTarget) (b : MembershipChange) :
    (s.change t b).list.fixtures = s.list.fixtures := by
  unfold change updateMembership
  split <;> rfl

theorem Task.fixtures (htask : Task server s s₁) : s₁.list.fixtures = s.list.fixtures := by
  cases htask with
  | call m => rfl
  | changeList k b => exact fixtures_change _ _ _
  | changeGroup name contacts hp w => exact fixtures_change _ _ _
  | openList hsupported hopen => exact fixtures_openChannel hopen
  | openGroup hfollows hname hopen => exact fixtures_openChannel hopen
  | announcePending =>
    unfold ContactScene.announcePending
    dsimp only
    split <;> rfl
  | detach name => rfl
  | close t c e => rw [list_close]
  | dismiss t c reason e => rw [list_dismiss]
  | arrival hpending => rfl
  | lament hpending e =>
    rw [rosterFailed, if_pos hpending]
    rfl

theorem Tasks.fixtures (htasks : Tasks server s s₁) : s₁.list.fixtures = s.list.fixtures :=
  htasks.rel (R := fun s s' => s'.list.fixtures = s.list.fixtures) (fun _ => rfl)
    (fun h h' => h'.trans h) Task.fixtures

theorem fixtures_disconnect (s : ContactScene σ) :
    s.disconnect.list.fixtures = s.list.fixtures := by
  rw [(disconnect_eq s).1]
  rfl

end ContactScene

end Telepathy

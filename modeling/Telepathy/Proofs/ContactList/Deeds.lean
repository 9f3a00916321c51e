import Telepathy.ContactList.Operation
import Telepathy.Proofs.ContactList.Numbers
import Telepathy.Proofs.Fallible
import Telepathy.Proofs.Group.Holdings

set_option autoImplicit false

/-!
# What a contact list does, deed by deed

Whatever happens to a contact list, it does one thing after the other: it calls its server, carries
out batches, creates, closes or moves groups, serves requests, and takes over the roster once. Each
of these is a deed, under the circumstances in which the contact list does it; in particular, when a
deed is done, all channels that it opened are announced if the roster is there. Apart from what the
contact list reads from its server, deeds speak only of contacts that the operation names or that
are in the group it is about. What holds across every deed holds across every operation and every
request.
-/

namespace Telepathy

/-- The names between which an operation moves a group, both in canonical form. -/
def ContactOperation.renaming? (normalise : String → Option String) {κ : Type} :
    ContactOperation κ → Option (String × String)
  | .groupRenamed old target => do return (← normalise old, ← normalise target)
  | .renameGroup old target => do
    let old ← normalise old
    let target ← normalise target
    -- A client cannot rename a group to a name that a group has; the server's notice of a renaming
    -- that was carried out brings the names into canonical form once more.
    if old = target then none else return (← normalise old, ← normalise target)
  | _ => none

/-- Finding the contacts of an operation does not change what it renames. -/
theorem ContactOperation.renaming?_of_resolve {normalise : String → Option String}
    {named : ContactOperation (List ContactName)} {resolved : ContactOperation (SortedSet Handle)}
    {t : HandleTable} (h : (named.resolve t).1 = .ok resolved) :
    resolved.renaming? normalise = named.renaming? normalise := by
  cases named with
  | contactsChanged changed departed =>
    simp only [resolve] at h
    split at h
    · cases h
    · obtain ⟨x, -, rfl⟩ := Except.map_eq_ok.mp h
      rfl
  | blockingChanged contacts =>
    obtain ⟨x, -, rfl⟩ := Except.map_eq_ok.mp h
    rfl
  | groupsChanged contacts added removed =>
    obtain ⟨x, -, rfl⟩ := Except.map_eq_ok.mp h
    rfl
  | addMembers path contacts message =>
    obtain ⟨x, -, rfl⟩ := Except.map_eq_ok.mp h
    rfl
  | removeMembers path contacts =>
    obtain ⟨x, -, rfl⟩ := Except.map_eq_ok.mp h
    rfl
  | _ =>
    cases h
    rfl

/-- The contacts that a call to a server names. -/
def Mutation.contacts : Mutation → List Handle
  | requestSubscription contacts _ | authorizePublication contacts | storeContacts contacts
  | removeContacts contacts | unsubscribe contacts | unpublish contacts | blockContacts contacts
  | unblockContacts contacts | addToGroup _ contacts | removeFromGroup _ contacts => contacts.toList
  | createGroups _ | renameGroup _ _ | removeGroup _ => []

/-- The contacts that an operation names as such. -/
def ContactOperation.contacts : ContactOperation (SortedSet Handle) → List Handle
  | contactsChanged changed departed => changed.toList ++ departed.toList
  | blockingChanged contacts | groupsChanged contacts _ _ | addMembers _ contacts _
  | removeMembers _ contacts => contacts.toList
  | _ => []

theorem ContactTarget.contacts_addition (t : ContactTarget) (contacts : SortedSet Handle)
    (message : String) : (t.addition contacts message).contacts = contacts.toList := by
  rcases t with k | name
  · cases k <;> rfl
  · rfl

theorem ContactTarget.contacts_removal (t : ContactTarget) (contacts : SortedSet Handle) :
    (t.removal contacts).contacts = contacts.toList := by
  rcases t with k | name
  · cases k <;> rfl
  · rfl

/-- Of the contacts that a client wants to add only those are left that it named. -/
theorem ContactList.mem_of_checkAddition {l : ContactList} {path : ObjectPath}
    {contacts outstanding : SortedSet Handle} {t : ContactTarget}
    (h : l.checkAddition path contacts = .ok (t, outstanding)) {x : Handle}
    (hx : x ∈ outstanding) : x ∈ contacts := by
  obtain ⟨_, -, h⟩ := Except.bind_eq_ok.mp h
  obtain ⟨⟨t', c⟩, -, h⟩ := Except.bind_eq_ok.mp h
  obtain ⟨outstanding', hcheck, h⟩ := Except.bind_eq_ok.mp h
  cases h
  rw [Except.mapError_eq_ok, Membership.checkAdd] at hcheck
  split at hcheck
  · cases hcheck
  · cases hcheck
    exact (SortedSet.mem_diff.mp hx).1

namespace ContactScene

variable {σ : Type}

/-- One deed of a contact list that names only contacts that satisfy `X`, to its server and in its
batches, and moves groups only between names related by `M`. -/
inductive Deed (server : ContactServer σ) (X : Handle → Prop) (M : String → String → Prop) :
    ContactScene σ → ContactScene σ → Prop
  | call (s : ContactScene σ) {m : Mutation} (hm : ∀ h ∈ m.contacts, X h) :
      Deed server X M s (s.call server m).2
  | change (s : ContactScene σ) (t : ContactTarget) {c : MembershipChange} (hc : c.Within X) :
      Deed server X M s (s.change t c)
  | fail (s : ContactScene σ) (tokens : List RequestToken) (e : Error) :
      Deed server X M s (s.fail tokens e)
  /-- New groups get channels, which are announced at once if the roster is there. -/
  | create (s : ContactScene σ) (hfollows : s.list.followsGroups = true) (names : List String) :
      Deed server X M s (s.tryOpenGroups names).announcePending
  | closeGroup (s : ContactScene σ) (name : String) : Deed server X M s (s.closeGroup name)
  | moveGroup (s : ContactScene σ) {old target : String} (hM : M old target) :
      Deed server X M s (s.moveGroup old target)
  /-- A request is for a channel that exists. -/
  | satisfy {s : ContactScene σ} {t : ContactTarget} {c : ContactChannel}
      (h : s.list.channels.get? t = some c) (token : RequestToken) :
      Deed server X M s (s.satisfy t token)
  /-- A request is for a list. -/
  | serve {s s₁ : ContactScene σ} {r : ChannelRequest} {k : ListKind}
      (hcheck : checkListRequest s.list r = .ok k)
      (hopen : s.openChannel (.list k) false = .ok s₁) :
      Deed server X M s (s₁.satisfy (.list k) r.token)
  /-- A request is for a group of which it will turn out whether the server knows it. -/
  | await {s s₁ : ContactScene σ} {r : ChannelRequest} {name : String}
      (hcheck : checkGroupRequest server s.list r = .ok name)
      (hnone : s.list.group? name = none) (hroster : s.list.roster ≠ .received)
      (hopen : s.openChannel (.group name) true = .ok s₁) :
      Deed server X M s (s₁.satisfy (.group name) r.token)
  /-- The server has created a group that was requested. -/
  | grant {s s₁ : ContactScene σ} {name : String} (hnone : s.list.group? name = none)
      (hroster : s.list.roster = .received) (hopen : s.openChannel (.group name) true = .ok s₁)
      (token : RequestToken) : Deed server X M s (s₁.announceFor (.group name) token)
  | load (s : ContactScene σ) (hroster : s.list.roster = .pending) :
      Deed server X M s (s.loadRoster server)
  | lament (s : ContactScene σ) (hroster : s.list.roster = .pending) (e : Error) :
      Deed server X M s (s.rosterFailed e)

/-- A chain of deeds. -/
inductive Deeds (server : ContactServer σ) (X : Handle → Prop) (M : String → String → Prop)
    (s : ContactScene σ) : ContactScene σ → Prop
  | refl : Deeds server X M s s
  | tail {s₁ s₂ : ContactScene σ} (h : Deeds server X M s s₁) (h' : Deed server X M s₁ s₂) :
      Deeds server X M s s₂

variable {server : ContactServer σ} {X : Handle → Prop} {M : String → String → Prop}
  {s s₁ s₂ : ContactScene σ}

namespace Deeds

theorem single (h : Deed server X M s s₁) : Deeds server X M s s₁ := Deeds.refl.tail h

theorem trans (h : Deeds server X M s s₁) (h' : Deeds server X M s₁ s₂) :
    Deeds server X M s s₂ := by
  induction h' with
  | refl => exact h
  | tail _ hlast ih => exact ih.tail hlast

theorem foldl {α : Type} {f : ContactScene σ → α → ContactScene σ}
    (hf : ∀ s a, Deeds server X M s (f s a)) (l : List α) (s : ContactScene σ) :
    Deeds server X M s (l.foldl f s) :=
  List.foldl_rel_of_step (fun _ => .refl) trans hf l s

/-- What holds across every deed holds across a chain. -/
theorem rel {R : ContactScene σ → ContactScene σ → Prop} (hrefl : ∀ s, R s s)
    (htrans : ∀ {s s₁ s₂}, R s s₁ → R s₁ s₂ → R s s₂)
    (hdeed : ∀ {s s₁}, Deed server X M s s₁ → R s s₁) (h : Deeds server X M s s₁) : R s s₁ := by
  induction h with
  | refl => exact hrefl s
  | tail _ hlast ih => exact htrans ih (hdeed hlast)

/-- What every deed keeps is kept by a chain. -/
theorem keeps {I : ContactScene σ → Prop} (hdeed : ∀ {s s₁}, Deed server X M s s₁ → I s → I s₁)
    (h : Deeds server X M s s₁) (hs : I s) : I s₁ :=
  h.rel (R := fun s s' => I s → I s') (fun _ => id) (fun h h' hs => h' (h hs)) hdeed hs

end Deeds

theorem deeds_of_call {m : Mutation} (hm : ∀ h ∈ m.contacts, X h) {failure : Option Error}
    (h : s.call server m = (failure, s₁)) : Deeds server X M s s₁ := by
  have hcall : Deeds server X M s (s.call server m).2 := .single (.call s hm)
  rwa [h] at hcall

/-! ## Groups -/

theorem deeds_groupsCreated (s : ContactScene σ) (names : List String) :
    Deeds server X M s (s.groupsCreated server names) := by
  unfold groupsCreated
  split
  case isTrue hfollows => exact .single (.create s hfollows _)
  case isFalse => exact .refl

theorem deeds_groupsRemoved (s : ContactScene σ) (names : List String) :
    Deeds server X M s (s.groupsRemoved server names) := by
  unfold groupsRemoved
  split
  · exact .foldl (fun s name => .single (.closeGroup s name)) _ s
  · exact .refl

theorem deeds_groupRenamed (s : ContactScene σ) {old target : String}
    (hM : ∀ o t, server.normaliseGroup old = some o → server.normaliseGroup target = some t →
      M o t) : Deeds server X M s (s.groupRenamed server old target) := by
  unfold groupRenamed
  split
  · split
    case h_1 o t hold htarget => exact .single (.moveGroup s (hM o t hold htarget))
    case h_2 => exact .refl
  · exact .refl

theorem deeds_changeGroups (s : ContactScene σ) {c : MembershipChange} (hc : c.Within X)
    (names : List String) :
    Deeds server X M s (names.foldl (fun s name => s.change (.group name) c) s) :=
  .foldl (fun s name => .single (.change s (.group name) hc)) names s

section Batches

variable {contacts : SortedSet Handle} (hX : ∀ h ∈ contacts, X h)
include hX

theorem deeds_groupsChanged (s : ContactScene σ) (added removed : List String) :
    Deeds server X M s (s.groupsChanged server contacts added removed) := by
  have hplaced : ∀ p, (MembershipChange.ofSet contacts p .unstated).Within X := fun p =>
    MembershipChange.within_ofSet p hX rfl
  unfold groupsChanged
  split
  case isTrue h =>
    exact ((Deeds.single (.create s h.1 _)).trans (deeds_changeGroups _ (hplaced _) _)).trans
      (deeds_changeGroups _ (hplaced _) _)
  case isFalse => exact .refl

theorem deeds_emulateRename (s : ContactScene σ) (old target : String) :
    Deeds server X M s (s.emulateRename server old target contacts).2 := by
  unfold emulateRename
  split
  case h_1 hcall => exact deeds_of_call (by simp [Mutation.contacts]) hcall
  case h_2 s₁ hcall =>
    have hcreated : Deeds server X M s s₁ := deeds_of_call (by simp [Mutation.contacts]) hcall
    have hadded : Deeds server X M s₁ (if contacts.isEmpty then (none, s₁)
        else s₁.call server (.addToGroup target contacts)).2 := by
      split
      · exact .refl
      · exact .single (.call s₁ hX)
    simp only
    split
    · exact (hcreated.trans hadded).trans (deeds_groupsCreated _ _)
    · split
      case h_1 hcall' =>
        exact ((hcreated.trans hadded).trans
          (deeds_of_call (by simp [Mutation.contacts]) hcall')).trans (deeds_groupsChanged hX _ _ _)
      case h_2 hcall' =>
        exact (hcreated.trans hadded).trans (deeds_of_call (by simp [Mutation.contacts]) hcall')

theorem deeds_callRename (s : ContactScene σ) (rename : GroupRename) (old target : String) :
    Deeds server X M s (s.callRename server rename old target contacts).2 := by
  cases rename with
  | native => exact .single (.call s (by simp [Mutation.contacts]))
  | emulated => exact deeds_emulateRename hX s old target

end Batches

/-- What a client's renaming starts from, if it gets as far as asking the server. -/
theorem checkRenaming_eq_ok {l : ContactList} {old new : String}
    {checked : GroupRename × String × String × SortedSet Handle}
    (h : checkRenaming server l old new = .ok checked) :
    ∃ rename oldName target c, checked = (rename, oldName, target, c.membership.members) ∧
      l.renameStrategy = .ok rename ∧ server.normaliseGroup old = some oldName ∧
      server.normaliseGroup new = some target ∧ l.group? oldName = some c ∧
      l.group? target = none := by
  have hcanonical : ∀ {name canonical}, canonicalGroup server name = .ok canonical →
      server.normaliseGroup name = some canonical := by
    intro name canonical h
    unfold canonicalGroup at h
    split at h <;> cases h
    assumption
  obtain ⟨rename, hrename, h⟩ := Except.bind_eq_ok.mp h
  obtain ⟨oldName, hold, h⟩ := Except.bind_eq_ok.mp h
  obtain ⟨target, htarget, h⟩ := Except.bind_eq_ok.mp h
  obtain ⟨c, hc, h⟩ := Except.bind_eq_ok.mp h
  split at h
  · cases h
  case isFalse hfree =>
    cases h
    refine ⟨rename, oldName, target, c, rfl, hrename, hcanonical hold, hcanonical htarget, ?_,
      Option.not_isSome_iff_eq_none.mp hfree⟩
    unfold ContactList.groupNamed at hc
    split at hc <;> cases hc
    assumption

/-- What is known of the names in a renaming that is not refused. -/
theorem of_checkRenaming {l : ContactList} {old target : String}
    {checked : GroupRename × String × String × SortedSet Handle}
    (h : checkRenaming server l old target = .ok checked) :
    server.normaliseGroup old = some checked.2.1 ∧
      server.normaliseGroup target = some checked.2.2.1 ∧ checked.2.1 ≠ checked.2.2.1 := by
  obtain ⟨rename, oldName, t, c, rfl, -, hold, htarget, hc, hfree⟩ := checkRenaming_eq_ok h
  refine ⟨hold, htarget, ?_⟩
  -- The old name has a channel and the new one has none.
  intro hsame
  have hsame : oldName = t := hsame
  subst hsame
  cases hc.symm.trans hfree

theorem deeds_renameGroup (s : ContactScene σ) {old target : String}
    (hX : ∀ t c, s.list.channels.get? t = some c → ∀ h ∈ c.membership.members, X h)
    (hM : ∀ o t, (ContactOperation.renameGroup (κ := Unit) old target).renaming?
      server.normaliseGroup = some (o, t) → M o t) :
    Deeds server X M s (s.renameGroup server old target).2 := by
  unfold renameGroup
  split
  · exact .refl
  case h_2 rename o t members hcheck =>
    obtain ⟨hold, htarget, hne⟩ := of_checkRenaming hcheck
    have hmembers : ∀ h ∈ members, X h := by
      obtain ⟨_, _, _, c, heq, -, -, -, hc, -⟩ := checkRenaming_eq_ok hcheck
      cases heq
      exact hX (.group o) c hc
    have hcalled : Deeds server X M s (s.callRename server rename o t members).2 :=
      deeds_callRename hmembers s rename o t
    split
    case h_1 hcall =>
      rw [hcall] at hcalled
      exact hcalled
    case h_2 hcall =>
      rw [hcall] at hcalled
      refine hcalled.trans (deeds_groupRenamed _ fun o' t' hold' htarget' => hM o' t' ?_)
      simp only [ContactOperation.renaming?, hold, htarget, hold', htarget', Option.bind_eq_bind,
        Option.bind_some, if_neg hne]
      rfl

theorem deeds_closeChannel (s : ContactScene σ) (path : ObjectPath) :
    Deeds server X M s (s.closeChannel server path).2 := by
  unfold closeChannel
  split
  · exact .refl
  · split
    case h_1 hcall => exact deeds_of_call (by simp [Mutation.contacts]) hcall
    case h_2 hcall =>
      exact (deeds_of_call (by simp [Mutation.contacts]) hcall).trans (deeds_groupsRemoved _ _)

/-! ## Requests -/

theorem deeds_requestList (s : ContactScene σ) (r : ChannelRequest) :
    Deeds server X M s (s.requestList r).2 := by
  unfold requestList
  split
  · exact .refl
  case h_2 k hcheck =>
    split
    · exact .refl
    case h_2 hopen => exact .single (.serve hcheck hopen)

theorem deeds_createGroupFor (s : ContactScene σ) {name : String}
    (hnone : s.list.group? name = none) (hroster : s.list.roster = .received)
    (token : RequestToken) : Deeds server X M s (s.createGroupFor server name token).2 := by
  unfold createGroupFor
  split
  · exact .refl
  · split
    case h_1 hcall => exact deeds_of_call (by simp [Mutation.contacts]) hcall
    case h_2 s₁ hcall =>
      have hcreated : Deeds server X M s s₁ := deeds_of_call (by simp [Mutation.contacts]) hcall
      have hlist : (s.call server (.createGroups [name])).2.list = s.list := rfl
      rw [hcall] at hlist
      split
      · exact hcreated
      case h_2 hopen =>
        refine hcreated.tail (.grant ?_ ?_ hopen token)
        · rw [hlist, hnone]
        · rw [hlist, hroster]

theorem deeds_requestGroup (s : ContactScene σ) (r : ChannelRequest) :
    Deeds server X M s (s.requestGroup server r).2 := by
  unfold requestGroup
  split
  · exact .refl
  case h_2 name hcheck =>
    split
    case isTrue hsome =>
      obtain ⟨c, hc⟩ := Option.isSome_iff_exists.mp hsome
      split
      · exact .refl
      · exact .single (.satisfy hc r.token)
    case isFalse hnone =>
      have hnone : s.list.group? name = none := Option.not_isSome_iff_eq_none.mp hnone
      split
      case isTrue hroster => exact deeds_createGroupFor s hnone hroster r.token
      case isFalse hroster =>
        split
        · exact .refl
        case h_2 hopen => exact .single (.await hcheck hnone hroster hopen)

theorem deeds_conclude {token : RequestToken} {outcome : ContactOutcome σ}
    (h : Deeds server X M s outcome.2) : Deeds server X M s (conclude token outcome) := by
  unfold conclude
  split
  · exact h
  · exact h.tail (.fail _ _ _)

/-- Serving a request is a chain of deeds without batches. -/
theorem deeds_offer (s : ContactScene σ) (r : ChannelRequest) :
    Deeds server X M s (s.offer server r).2 := by
  unfold offer
  split
  · exact .refl
  · split
    · exact deeds_conclude (deeds_requestList s r)
    · exact deeds_conclude (deeds_requestGroup s r)
    · exact .refl
    · exact .refl
    · exact .refl

/-! ## Contacts -/

theorem deeds_applyContacts (s : ContactScene σ) {changed departed : SortedSet Handle}
    (hchanged : ∀ h ∈ changed, X h) (hdeparted : ∀ h ∈ departed, X h) :
    Deeds server X M s (s.applyContacts server changed departed) := by
  have hpresent : ∀ h ∈ changed.diff departed, X h := fun h hh =>
    hchanged h (SortedSet.mem_diff.mp hh).1
  have hread : ∀ place?, (MembershipChange.ofReadings departed (changed.diff departed) place?
      .unstated).Within X := fun place? =>
    MembershipChange.within_ofReadings place? hdeparted hpresent rfl
  have hasked : ∀ (l : List Handle) (message : Handle → String) (s : ContactScene σ),
      (∀ h ∈ l, X h) → Deeds server X M s (l.foldl (fun s h => s.change (.list .publish)
        (.ofSet (.ofList [h]) .localPending ⟨none, .none, message h⟩)) s) := by
    intro l message
    induction l with
    | nil => exact fun _ _ => .refl
    | cons h l ih =>
      intro s hl
      have hone : ∀ h' ∈ SortedSet.ofList [h], X h' := fun h' hh' =>
        hl h' ((List.mem_singleton.mp (SortedSet.mem_ofList.mp hh')) ▸ List.mem_cons_self)
      exact (Deeds.single (.change s _ (MembershipChange.within_ofSet _ hone rfl))).trans
        (ih _ fun h' hh' => hl h' (.tail _ hh'))
  unfold applyContacts
  refine (((Deeds.single (.change s _ (hread _))).trans (.single (.change _ _ (hread _)))).trans
    (hasked _ _ _ fun h hh => ?_)).trans (.single (.change _ _ (hread _)))
  exact hpresent h (SortedSet.mem_def.mpr (List.mem_filter.mp hh).1)

section Contacts

variable {contacts : SortedSet Handle} (hX : ∀ h ∈ contacts, X h)
include hX

theorem deeds_blockingChanged (s : ContactScene σ) :
    Deeds server X M s (s.blockingChanged server contacts) := by
  unfold blockingChanged
  split
  · exact .single (.change s _ (MembershipChange.within_ofReadings _ (by simp) hX rfl))
  · exact .refl

theorem deeds_followAddition (s : ContactScene σ) (t : ContactTarget) :
    Deeds server X M s (s.followAddition server t contacts) := by
  unfold followAddition
  split
  · exact deeds_applyContacts s hX (by simp)
  · exact deeds_applyContacts s hX (by simp)
  · exact deeds_applyContacts s hX (by simp)
  · exact deeds_blockingChanged hX s
  · exact deeds_groupsChanged hX s _ _

theorem deeds_followRemoval (s : ContactScene σ) (t : ContactTarget) :
    Deeds server X M s (s.followRemoval server t contacts) := by
  unfold followRemoval
  split
  · exact deeds_applyContacts s hX (by simp)
  · exact deeds_applyContacts s hX (by simp)
  · exact deeds_applyContacts s (by simp) hX
  · exact deeds_blockingChanged hX s
  · exact deeds_groupsChanged hX s _ _

theorem deeds_addMembers (s : ContactScene σ) (path : ObjectPath) (message : String) :
    Deeds server X M s (s.addMembers server path contacts message).2 := by
  unfold addMembers
  split
  · exact .refl
  case h_2 t outstanding hcheck =>
    have houtstanding : ∀ h ∈ outstanding, X h := fun h hh =>
      hX h (ContactList.mem_of_checkAddition hcheck hh)
    have hnamed : ∀ h ∈ (t.addition outstanding message).contacts, X h := by
      rw [ContactTarget.contacts_addition]
      exact houtstanding
    split
    · exact .refl
    · split
      case h_1 hcall => exact deeds_of_call hnamed hcall
      case h_2 hcall =>
        exact (deeds_of_call hnamed hcall).trans (deeds_followAddition houtstanding _ _)

theorem deeds_removeMembers (s : ContactScene σ) (path : ObjectPath) :
    Deeds server X M s (s.removeMembers server path contacts).2 := by
  unfold removeMembers
  split
  · exact .refl
  case h_2 t hcheck =>
    have hnamed : ∀ h ∈ (t.removal contacts).contacts, X h := by
      rw [ContactTarget.contacts_removal]
      exact hX
    split
    case h_1 hcall => exact deeds_of_call hnamed hcall
    case h_2 hcall => exact (deeds_of_call hnamed hcall).trans (deeds_followRemoval hX _ _)

end Contacts

/-! ## Operations -/

/-- Whoever an operation can come to speak of satisfies `X`: the contacts it names, those who are in
a group, and those whom old clients name by number. -/
structure Within (s : ContactScene σ) (op : ContactOperation (SortedSet Handle))
    (X : Handle → Prop) : Prop where
  named : ∀ h ∈ op.contacts, X h
  members : ∀ t c, s.list.channels.get? t = some c → ∀ h ∈ c.membership.members, X h
  numbered : ∀ h, s.tables.contact.isValid h = true → X h

/-- No restriction on contacts. -/
def anybody (_ : Handle) : Prop := True

theorem within_anybody (s : ContactScene σ) (op : ContactOperation (SortedSet Handle)) :
    s.Within op anybody :=
  ⟨fun _ _ => trivial, fun _ _ _ _ _ => trivial, fun _ _ => trivial⟩

/-- Every operation is a chain of deeds. -/
theorem deeds_perform (s : ContactScene σ) {op : ContactOperation (SortedSet Handle)}
    (hX : s.Within op X)
    (hM : ∀ old target, op.renaming? server.normaliseGroup = some (old, target) → M old target) :
    Deeds server X M s (s.perform server op).2 := by
  cases op with
  | received =>
    simp only [perform, noticed, rosterReceived]
    split
    case isTrue hroster => exact .single (.load s hroster)
    case isFalse => exact .refl
  | failed e =>
    by_cases hroster : s.list.roster = .pending
    · exact .single (.lament s hroster e)
    · simp only [perform, noticed, rosterFailed, if_neg hroster]
      exact .refl
  | contactsChanged changed departed =>
    simp only [perform, noticed, contactsChanged]
    split
    · exact deeds_applyContacts s (fun h hh => hX.named h (List.mem_append_left _ hh))
        fun h hh => hX.named h (List.mem_append_right _ hh)
    · exact .refl
  | blockingChanged contacts => exact deeds_blockingChanged hX.named s
  | groupsCreated names => exact deeds_groupsCreated s names
  | groupsRemoved names => exact deeds_groupsRemoved s names
  | groupRenamed old target =>
    refine deeds_groupRenamed s fun o t hold htarget => hM o t ?_
    simp only [ContactOperation.renaming?, hold, htarget]
    rfl
  | groupsChanged contacts added removed => exact deeds_groupsChanged hX.named s added removed
  | addMembers path contacts message => exact deeds_addMembers hX.named s path message
  | removeMembers path contacts => exact deeds_removeMembers hX.named s path
  | closeChannel path => exact deeds_closeChannel s path
  | renameGroup old target => exact deeds_renameGroup s hX.members hM
  | legacyAdd path numbers message =>
    simp only [perform, legacyAddMembers]
    split
    · exact .refl
    case h_2 contacts hnumbers =>
      exact deeds_addMembers (fun h hh =>
        hX.numbered h (HandleTable.isValid_of_holdNumbers hnumbers hh)) s _ _
  | legacyRemove path numbers =>
    simp only [perform, legacyRemoveMembers]
    split
    · exact .refl
    case h_2 contacts hnumbers =>
      exact deeds_removeMembers (fun h hh =>
        hX.numbered h (HandleTable.isValid_of_holdNumbers hnumbers hh)) s _

end ContactScene

end Telepathy

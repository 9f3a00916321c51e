import Telepathy.Proofs.ContactList.Attempts

set_option autoImplicit false

/-!
# The gate before the server

What a client asks of a channel is measured by the flags of the channel, contact by contact, before
the server is asked anything. One forbidden contact turns the whole change away; otherwise the
server is asked once, about all contacts that are concerned.

The flags in turn are never anything but what the capabilities of the contact list grant a channel
of that kind, which `ContactTarget.letsAdd`, `letsRemove` and `letsRescind` spell out.
-/

namespace Telepathy

/-! ## What the flags of a group forbid -/

namespace Membership

variable {m : Membership} {h : Handle}

/-- Adding a contact is forbidden: it is new to the group or yet to answer, and the flags do not let
clients add anybody. -/
def ForbidsAdding (m : Membership) (h : Handle) : Prop :=
  h ∉ m.members ∧ h ∉ m.localPending ∧ m.flags.has .canAdd = false

/-- Removing a contact is refused, with the error a client sees. -/
inductive RefusesRemoval (m : Membership) (h : Handle) : Error → Prop
  /-- The contact is nowhere in the group. -/
  | absent (hmember : h ∉ m.members) (hlocal : h ∉ m.localPending)
      (hremote : h ∉ m.remotePending) :
      RefusesRemoval m h ⟨.notAvailable, s!"handle {h.text} is not a current or pending member"⟩
  /-- The contact is in the group or asks to be let in, and may not be removed. -/
  | kept (hthere : h ∈ m.members ∨ h ∈ m.localPending) (hflag : m.flags.has .canRemove = false) :
      RefusesRemoval m h ⟨.permissionDenied, s!"handle {h.text} cannot be removed from this group"⟩
  /-- The contact is invited, and the invitation may not be rescinded. -/
  | invited (hthere : h ∈ m.remotePending) (hflag : m.flags.has .canRescind = false) :
      RefusesRemoval m h ⟨.permissionDenied, s!"handle {h.text} cannot be removed from this group"⟩

theorem mayAdd_eq_false : m.mayAdd h = false ↔ m.ForbidsAdding h := by
  rw [ForbidsAdding, members, localPending, mem_inPlace (by decide), mem_inPlace (by decide),
    mayAdd]
  cases m.placeOf h <;> simp

/-- The check of one contact refuses it exactly where removing it is refused. -/
theorem removalRefusal?_eq_some {e : Error} :
    (∃ r, m.removalRefusal? h = some r ∧ r.toError = e) ↔ m.RefusesRemoval h e := by
  have hmembers : h ∈ m.members ↔ m.placeOf h = .member := mem_inPlace (by decide)
  have hlocal : h ∈ m.localPending ↔ m.placeOf h = .localPending := mem_inPlace (by decide)
  have hremote : h ∈ m.remotePending ↔ m.placeOf h = .remotePending := mem_inPlace (by decide)
  constructor
  · rintro ⟨r, hr, rfl⟩
    unfold removalRefusal? at hr
    split at hr
    case h_1 hplace =>
      cases hr
      exact .absent (by simp [hmembers, hplace]) (by simp [hlocal, hplace])
        (by simp [hremote, hplace])
    case h_2 hplace =>
      split at hr
      · cases hr
      case isFalse hflag =>
        cases hr
        exact .kept (.inl (hmembers.mpr hplace)) (Bool.eq_false_iff.mpr hflag)
    case h_3 hplace =>
      split at hr
      · cases hr
      case isFalse hflag =>
        cases hr
        exact .kept (.inr (hlocal.mpr hplace)) (Bool.eq_false_iff.mpr hflag)
    case h_4 hplace =>
      split at hr
      · cases hr
      case isFalse hflag =>
        cases hr
        exact .invited (hremote.mpr hplace) (Bool.eq_false_iff.mpr hflag)
  · intro hrefuses
    cases hrefuses with
    | absent hmember hlocal' hremote' =>
      refine ⟨.notInGroup h, ?_, rfl⟩
      rw [hmembers] at hmember
      rw [hlocal] at hlocal'
      rw [hremote] at hremote'
      cases hplace : m.placeOf h <;> simp_all [removalRefusal?]
    | kept hthere hflag =>
      refine ⟨.mayNotRemove h, ?_, rfl⟩
      rw [hmembers, hlocal] at hthere
      rcases hthere with hplace | hplace <;> simp [removalRefusal?, hplace, hflag]
    | invited hthere hflag =>
      refine ⟨.mayNotRemove h, ?_, rfl⟩
      simp [removalRefusal?, hremote.mp hthere, hflag]

/-- Who may be added to the members is one of them or asks to be, or the flags let clients add. -/
theorem of_not_forbidsAdding (hallowed : ¬ m.ForbidsAdding h) :
    h ∈ m.members ∨ h ∈ m.localPending ∨ m.flags.has .canAdd = true := by
  by_cases hmember : h ∈ m.members
  · exact .inl hmember
  · by_cases hlocal : h ∈ m.localPending
    · exact .inr (.inl hlocal)
    · cases hflag : m.flags.has .canAdd with
      | true => exact .inr (.inr rfl)
      | false => exact absurd ⟨hmember, hlocal, hflag⟩ hallowed

/-- Who may be removed is where the flags let clients remove from. -/
theorem of_not_refusesRemoval (hallowed : ∀ e, ¬ m.RefusesRemoval h e) :
    (h ∈ m.members ∨ h ∈ m.localPending) ∧ m.flags.has .canRemove = true ∨
      h ∈ m.remotePending ∧ m.flags.has .canRescind = true := by
  by_cases hthere : h ∈ m.members ∨ h ∈ m.localPending
  · cases hflag : m.flags.has .canRemove with
    | true => exact .inl ⟨hthere, rfl⟩
    | false => exact absurd (.kept hthere hflag) (hallowed _)
  · by_cases hremote : h ∈ m.remotePending
    · cases hflag : m.flags.has .canRescind with
      | true => exact .inr ⟨hremote, rfl⟩
      | false => exact absurd (.invited hremote hflag) (hallowed _)
    · obtain ⟨hmember, hlocal⟩ := not_or.mp hthere
      exact absurd (.absent hmember hlocal hremote) (hallowed _)

/-- One forbidden contact is enough for the whole addition to be refused. -/
theorem checkAdd_of_forbidden {contacts : SortedSet Handle} (hmem : h ∈ contacts)
    (hforbids : m.ForbidsAdding h) : ∃ h', m.checkAdd contacts = .error (.mayNotAdd h') := by
  unfold checkAdd
  cases hfind : contacts.toList.find? fun h => !m.mayAdd h with
  | some h' => exact ⟨h', rfl⟩
  | none =>
    have hallowed := List.find?_eq_none.mp hfind h hmem
    rw [mayAdd_eq_false.mpr hforbids] at hallowed
    exact absurd rfl hallowed

/-- If no contact is forbidden, those are to be added who are not members yet. -/
theorem checkAdd_of_allowed {contacts : SortedSet Handle}
    (hallowed : ∀ h ∈ contacts, ¬ m.ForbidsAdding h) :
    m.checkAdd contacts = .ok (contacts.diff m.members) := by
  have hnone : contacts.toList.find? (fun h => !m.mayAdd h) = none := by
    refine List.find?_eq_none.mpr fun h hmem hforbidden => hallowed h hmem ?_
    exact mayAdd_eq_false.mp (by simpa using hforbidden)
  rw [checkAdd, hnone]

/-- The first contact that may not be removed decides the error. -/
theorem checkRemove_of_refused {contacts : SortedSet Handle} {e : Error} (hmem : h ∈ contacts)
    (hrefuses : m.RefusesRemoval h e)
    (hfirst : ∀ h' ∈ contacts, h'.number < h.number → ∀ e', ¬ m.RefusesRemoval h' e') :
    ∃ r, m.checkRemove contacts = .error r ∧ r.toError = e := by
  obtain ⟨r, hr, he⟩ := removalRefusal?_eq_some.mpr hrefuses
  obtain ⟨before, after, hsplit⟩ := List.append_of_mem (SortedSet.mem_def.mp hmem)
  have hbefore : ∀ h' ∈ before, m.removalRefusal? h' = none := by
    intro h' hh'
    have hascending := contacts.ascending
    rw [hsplit, List.pairwise_append] at hascending
    have hless : compare h'.number h.number = .lt :=
      hascending.2.2 h' hh' h List.mem_cons_self
    have hcontact : h' ∈ contacts := by
      rw [SortedSet.mem_def, hsplit]
      exact List.mem_append_left _ hh'
    cases hnone : m.removalRefusal? h' with
    | none => rfl
    | some r' =>
      have hrefused := removalRefusal?_eq_some.mp ⟨r', hnone, rfl⟩
      exact absurd hrefused (hfirst h' hcontact (Nat.compare_eq_lt.mp hless) _)
  have hfound : contacts.toList.findSome? m.removalRefusal? = some r :=
    List.findSome?_eq_some_iff.mpr ⟨before, h, after, hsplit, hr, hbefore⟩
  exact ⟨r, by rw [checkRemove, hfound], he⟩

/-- Contacts may be removed exactly if removing none of them is refused. -/
theorem checkRemove_eq_ok {contacts : SortedSet Handle} :
    m.checkRemove contacts = .ok () ↔ ∀ h ∈ contacts, ∀ e, ¬ m.RefusesRemoval h e := by
  have hnone : contacts.toList.findSome? m.removalRefusal? = none ↔
      ∀ h ∈ contacts, ∀ e, ¬ m.RefusesRemoval h e := by
    rw [List.findSome?_eq_none_iff]
    refine forall_congr' fun h => forall_congr' fun _ => ?_
    simp only [← removalRefusal?_eq_some]
    cases m.removalRefusal? h <;> simp
  rw [← hnone, checkRemove]
  cases contacts.toList.findSome? m.removalRefusal? <;> simp

end Membership

namespace ContactList

variable {l : ContactList} {path : ObjectPath} {t : ContactTarget} {c : ContactChannel}

/-- Once the roster is there, an addition to a channel is checked by the membership alone. -/
theorem checkAddition_eq (hreceived : l.roster = .received) (hat : l.at? path = some (t, c))
    (contacts : SortedSet Handle) :
    l.checkAddition path contacts =
      ((c.membership.checkAdd contacts).mapError .policy).map (t, ·) := by
  simp only [checkAddition, checkReceived, hreceived, channelAt, hat, bind, Except.bind]
  cases c.membership.checkAdd contacts <;> rfl

/-- And so is a removal. -/
theorem checkRemoval_eq (hreceived : l.roster = .received) (hat : l.at? path = some (t, c))
    (contacts : SortedSet Handle) :
    l.checkRemoval path contacts =
      ((c.membership.checkRemove contacts).mapError .policy).map fun _ => t := by
  simp only [checkRemoval, checkReceived, hreceived, channelAt, hat, bind, Except.bind]
  cases c.membership.checkRemove contacts <;> rfl

end ContactList

/-! ## What becomes of a change -/

namespace ContactScene

variable {σ : Type} {server : ContactServer σ} {s s₁ : ContactScene σ} {path : ObjectPath}
  {t : ContactTarget} {c : ContactChannel}

/-- From one scene to the next the server was asked exactly one thing. -/
def AsksOnce (s s' : ContactScene σ) (m : Mutation) : Prop :=
  ∃ call, s'.calls = s.calls ++ [call] ∧ call.mutation = m

theorem AsksOnce.calls_ne {m : Mutation} (h : s.AsksOnce s₁ m) : s₁.calls ≠ s.calls := by
  obtain ⟨call, hcalls, -⟩ := h
  rw [hcalls]
  simp

/-- What a client's addition to a channel with membership `m` comes to. -/
structure GatesAddition (server : ContactServer σ) (s : ContactScene σ) (path : ObjectPath)
    (t : ContactTarget) (m : Membership) (contacts : SortedSet Handle) (message : String) :
    Prop where
  /-- It is denied without a call exactly if one of the contacts is forbidden. -/
  denied : (s.addMembers server path contacts message).2.calls = s.calls ∧
      (∃ r, (s.addMembers server path contacts message).1 = .error r ∧
        r.toError.kind = .permissionDenied) ↔
    ∃ h ∈ contacts, m.ForbidsAdding h
  /-- If it is, nothing has happened at all. -/
  untouched : (∃ h ∈ contacts, m.ForbidsAdding h) →
    (s.addMembers server path contacts message).2 = s
  /-- If all contacts are members already, there is nothing to do. -/
  idle : (∀ h ∈ contacts, ¬ m.ForbidsAdding h) → (contacts.diff m.members).isEmpty = true →
    s.addMembers server path contacts message = (.ok (), s)
  /-- Otherwise the server is asked once, to add those who are not. -/
  asked : (∀ h ∈ contacts, ¬ m.ForbidsAdding h) → (contacts.diff m.members).isEmpty = false →
    s.AsksOnce (s.addMembers server path contacts message).2
      (t.addition (contacts.diff m.members) message)

/-- What a client's removal from a channel with membership `m` comes to. -/
structure GatesRemoval (server : ContactServer σ) (s : ContactScene σ) (path : ObjectPath)
    (t : ContactTarget) (m : Membership) (contacts : SortedSet Handle) : Prop where
  /-- The first contact that may not be removed ends it, with its error and nothing else. -/
  denied : ∀ h ∈ contacts, ∀ e, m.RefusesRemoval h e →
    (∀ h' ∈ contacts, h'.number < h.number → ∀ e', ¬ m.RefusesRemoval h' e') →
      ∃ r, s.removeMembers server path contacts = (.error r, s) ∧ r.toError = e
  /-- If there is none, the server is asked once, to remove them all. -/
  asked : (∀ h ∈ contacts, ∀ e, ¬ m.RefusesRemoval h e) →
    s.AsksOnce (s.removeMembers server path contacts).2 (t.removal contacts)

/-- The server is asked once, and what its answer leads to asks nothing more. -/
theorem asksOnce_call (m : Mutation) {follow : ContactScene σ → ContactScene σ}
    (hcalls : ∀ s, (follow s).calls = s.calls) :
    s.AsksOnce
      (match s.call server m with
        | (some e, s) => ((.error (.server e), s) : ContactOutcome σ)
        | (none, s) => (.ok (), follow s)).2 m := by
  have hcalled : s.AsksOnce (s.call server m).2 m := ⟨_, s.calls_call m, rfl⟩
  generalize s.call server m = called at hcalled
  obtain ⟨failure, s₁⟩ := called
  obtain ⟨call, hcall, hmutation⟩ := hcalled
  refine ⟨call, ?_, hmutation⟩
  rw [← hcall]
  cases failure with
  | some e => rfl
  | none => exact hcalls s₁

/-- The gate before an addition, in every state in which the roster is there. -/
theorem gatesAddition (server : ContactServer σ) (hreceived : s.list.roster = .received)
    (hat : s.list.at? path = some (t, c)) (contacts : SortedSet Handle) (message : String) :
    s.GatesAddition server path t c.membership contacts message := by
  have hforbidden : (∃ h ∈ contacts, c.membership.ForbidsAdding h) →
      ∃ h, s.addMembers server path contacts message = (.error (.policy (.mayNotAdd h)), s) := by
    rintro ⟨h, hmem, hforbids⟩
    obtain ⟨h', hcheck⟩ := Membership.checkAdd_of_forbidden hmem hforbids
    refine ⟨h', ?_⟩
    rw [addMembers, ContactList.checkAddition_eq hreceived hat, hcheck]
    rfl
  have hidle : (∀ h ∈ contacts, ¬ c.membership.ForbidsAdding h) →
      (contacts.diff c.membership.members).isEmpty = true →
      s.addMembers server path contacts message = (.ok (), s) := by
    intro hallowed hempty
    rw [addMembers, ContactList.checkAddition_eq hreceived hat,
      Membership.checkAdd_of_allowed hallowed]
    exact if_pos hempty
  have hasked : (∀ h ∈ contacts, ¬ c.membership.ForbidsAdding h) →
      (contacts.diff c.membership.members).isEmpty = false →
      s.AsksOnce (s.addMembers server path contacts message).2
        (t.addition (contacts.diff c.membership.members) message) := by
    intro hallowed hsome
    rw [addMembers, ContactList.checkAddition_eq hreceived hat,
      Membership.checkAdd_of_allowed hallowed]
    change s.AsksOnce (if (contacts.diff c.membership.members).isEmpty then _ else _ :
      ContactOutcome σ).2 _
    rw [if_neg (by simp [hsome])]
    exact asksOnce_call _ fun s => calls_followAddition s _ _
  refine ⟨⟨?_, fun h => ?_⟩, fun h => ?_, hidle, hasked⟩
  · -- Without a forbidden contact there is no error, or there is a call.
    rintro ⟨hcalls, r, hr, -⟩
    refine Classical.byContradiction fun hnone => ?_
    have hallowed : ∀ h ∈ contacts, ¬ c.membership.ForbidsAdding h :=
      fun h hmem hforbids => hnone ⟨h, hmem, hforbids⟩
    cases hempty : (contacts.diff c.membership.members).isEmpty with
    | true =>
      rw [hidle hallowed hempty] at hr
      cases hr
    | false => exact (hasked hallowed hempty).calls_ne hcalls
  · obtain ⟨h', hout⟩ := hforbidden h
    rw [hout]
    exact ⟨rfl, _, rfl, rfl⟩
  · obtain ⟨h', hout⟩ := hforbidden h
    rw [hout]

/-- The gate before a removal, in every such state. -/
theorem gatesRemoval (server : ContactServer σ) (hreceived : s.list.roster = .received)
    (hat : s.list.at? path = some (t, c)) (contacts : SortedSet Handle) :
    s.GatesRemoval server path t c.membership contacts where
  denied h hmem e hrefuses hfirst := by
    obtain ⟨r, hcheck, he⟩ := Membership.checkRemove_of_refused hmem hrefuses hfirst
    refine ⟨.policy r, ?_, he⟩
    rw [removeMembers, ContactList.checkRemoval_eq hreceived hat, hcheck]
    rfl
  asked hallowed := by
    rw [removeMembers, ContactList.checkRemoval_eq hreceived hat,
      Membership.checkRemove_eq_ok.mpr hallowed]
    exact asksOnce_call _ fun s => calls_followRemoval s _ _

/-- When an addition makes a call, none of its contacts is forbidden. -/
theorem allowed_of_addition (hreceived : s.list.roster = .received)
    (hat : s.list.at? path = some (t, c)) {contacts : SortedSet Handle} {message : String}
    (hcalls : (s.addMembers server path contacts message).2.calls ≠ s.calls) :
    ∀ h ∈ contacts, ¬ c.membership.ForbidsAdding h := by
  intro h hmem hforbids
  have hgate := gatesAddition server hreceived hat contacts message
  exact hcalls (hgate.denied.mpr ⟨h, hmem, hforbids⟩).1

/-- When a removal makes a call, removing none of its contacts is refused. -/
theorem allowed_of_removal (hreceived : s.list.roster = .received)
    (hat : s.list.at? path = some (t, c)) {contacts : SortedSet Handle}
    (hcalls : (s.removeMembers server path contacts).2.calls ≠ s.calls) :
    ∀ h ∈ contacts, ∀ e, ¬ c.membership.RefusesRemoval h e := by
  rw [← Membership.checkRemove_eq_ok]
  rw [removeMembers, ContactList.checkRemoval_eq hreceived hat] at hcalls
  cases hcheck : c.membership.checkRemove contacts with
  | ok done => rfl
  | error r =>
    rw [hcheck] at hcalls
    exact absurd rfl hcalls

end ContactScene

/-! ## What the capabilities grant -/

namespace ContactTarget

/-- Whether clients may add contacts to a channel. Nobody is ever given the user's presence without
having asked for it. -/
def letsAdd (t : ContactTarget) (p : Capabilities) : Bool :=
  match t with
  | list .subscribe | list .stored => p.canChange
  | list .publish => false
  | list .deny => true
  | group _ => p.groups.isEditable

/-- Whether clients may remove contacts from a channel. -/
def letsRemove (t : ContactTarget) (p : Capabilities) : Bool :=
  match t with
  | list .subscribe | list .publish | list .stored => p.canChange
  | list .deny => true
  | group _ => p.groups.isEditable

/-- Whether clients may take back a request for a contact's presence. -/
def letsRescind (t : ContactTarget) (p : Capabilities) : Bool :=
  match t with
  | list .subscribe => p.canChange
  | list .publish | list .stored | list .deny | group _ => false

end ContactTarget

namespace ContactList

/-- Every channel has the flags that the capabilities grant. -/
def Flagged (l : ContactList) : Prop :=
  ∀ t c, l.channels.get? t = some c → c.membership.flags = l.flagsOf t

/-- The flags that are granted, one by one. -/
theorem has_flagsOf (l : ContactList) (t : ContactTarget) :
    (l.flagsOf t).has .canAdd = t.letsAdd l.capabilities ∧
      (l.flagsOf t).has .canRemove = t.letsRemove l.capabilities ∧
      (l.flagsOf t).has .canRescind = t.letsRescind l.capabilities := by
  rcases hp : l.capabilities with ⟨canChange, persists, usesMessage, canBlock, groups⟩
  cases t with
  | list k =>
    cases k
    all_goals
      simp only [flagsOf, hp, ListKind.flags, ListKind.isEditable, ListKind.editingFlags,
        ContactTarget.letsAdd, ContactTarget.letsRemove, ContactTarget.letsRescind]
      cases canChange <;> cases usesMessage <;> decide
  | group name =>
    simp only [flagsOf, hp, GroupSupport.flags, ContactTarget.letsAdd, ContactTarget.letsRemove,
      ContactTarget.letsRescind]
    cases groups.isEditable <;> decide

theorem flagsOf_of_capabilities {l l' : ContactList} (h : l'.capabilities = l.capabilities)
    (t : ContactTarget) : l'.flagsOf t = l.flagsOf t := by
  cases t <;> simp only [flagsOf, h]

/-- The flags are right as long as the groups are the same. -/
theorem Flagged.sameGroups {l l' : ContactList} (h : l.Flagged) (hsame : l.SameGroups l') :
    l'.Flagged := by
  intro t c' hc'
  obtain ⟨c, hc, hmembership⟩ := hsame.memberships t c' hc'
  rw [hmembership, flagsOf_of_capabilities (Prod.mk.inj hsame.settings).1]
  exact h t c hc

end ContactList

namespace ContactScene

variable {σ : Type} {server : ContactServer σ} {s s₁ : ContactScene σ}

/-- The flags are still right if the channels come from where a step leaves them. -/
theorem flagged_of_origin (h : s.list.Flagged)
    (hcapabilities : s₁.list.capabilities = s.list.capabilities)
    (horigin : ∀ {t c'}, s₁.list.channels.get? t = some c' → Origin server s t c') :
    s₁.list.Flagged := by
  intro t c' hc'
  rw [ContactList.flagsOf_of_capabilities hcapabilities]
  cases horigin hc' with
  | kept hc hsame _ => exact hsame ▸ h t _ hc
  | changed hc _ => exact (Membership.change_flags _ _).trans (h t _ hc)
  | opened _ => rfl

theorem flagged_openChannel {t : ContactTarget} {requested : Bool} (h : s.list.Flagged)
    (ht : t.Openable server s.list) (hopen : s.openChannel t requested = .ok s₁) :
    s₁.list.Flagged :=
  flagged_of_origin h (capabilities_of_settings s (settings_openChannel s hopen))
    (origin_openChannel ht hopen)

/-- No step of an operation touches flags. -/
theorem Task.flagged (htask : Task server s s₁) (h : s.list.Flagged) : s₁.list.Flagged :=
  flagged_of_origin h htask.capabilities htask.origin

theorem flagged_perform (op : ContactOperation (SortedSet Handle)) (h : s.list.Flagged) :
    (s.perform server op).2.list.Flagged :=
  (tasks_perform s op).keeps (I := fun s => s.list.Flagged) Task.flagged h

theorem flagged_offer (r : ChannelRequest) (h : s.list.Flagged) :
    (s.offer server r).2.list.Flagged :=
  keeps_offer (I := ContactList.Flagged) flagged_openChannel ContactList.Flagged.sameGroups r h

/-- A contact list without channels has no wrong flags. -/
theorem flagged_of_empty (h : s.list.channels = .empty) : s.list.Flagged := by
  intro t c hc
  rw [h, SortedMap.get?_empty] at hc
  cases hc

theorem flagged_disconnect (s : ContactScene σ) : s.disconnect.list.Flagged :=
  flagged_of_empty s.ended_disconnect.2

theorem flagged_openLists (server : ContactServer σ) (h : s.list.channels = .empty) :
    s.openLists.list.Flagged := by
  have htasks : Tasks server s s.openLists := tasks_openLists s
  exact htasks.keeps (I := fun s => s.list.Flagged) Task.flagged (flagged_of_empty h)

end ContactScene

end Telepathy

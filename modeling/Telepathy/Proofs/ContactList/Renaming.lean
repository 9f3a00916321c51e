import Telepathy.Proofs.ContactList.Deeds
import Telepathy.Proofs.ContactList.Standings
import Telepathy.Proofs.Text.Blank

set_option autoImplicit false

/-!
# Renaming a group on a server that cannot

A server that cannot rename groups is asked to create the new group, to add the members to it and to
remove the old one, and may refuse each of these. The main law says what the contact list has in the
end once the new group was created: a channel for it, with the members if they were added, and on a
failure the old channel as it was. There is one gap: if the removal is refused while the roster has
not arrived, the contact list stays as it was, and there is no channel for the group that the server
has now.
-/

namespace Telepathy

/-- A call to the server with what the server answered. -/
def ServerCall.exchange (call : ServerCall) : Mutation × ServerAnswer :=
  (call.mutation, call.answer)

/-- The membership of the channel of a target, if there is such a channel. -/
def ContactList.membership? (l : ContactList) (t : ContactTarget) : Option Membership :=
  (l.channels.get? t).map (·.membership)

namespace ContactScene

variable {σ : Type} {server : ContactServer σ} {s s₁ s₂ : ContactScene σ}

/-! ## Asking the server -/

/-- What the server was asked so far, and what it answered. -/
def exchanges (s : ContactScene σ) : List (Mutation × ServerAnswer) :=
  s.calls.map ServerCall.exchange

/-- What the server was asked from one scene to a later one, and what it answered. -/
def exchangesUntil (s s' : ContactScene σ) : List (Mutation × ServerAnswer) :=
  s'.exchanges.drop s.exchanges.length

/-- Between two scenes the server was asked, and nothing else was done. -/
structure Asks (asked : List (Mutation × ServerAnswer)) (s s' : ContactScene σ) : Prop where
  list : s'.list = s.list
  exchanges : s'.exchanges = s.exchanges ++ asked
  tables : s.tables.Grows s'.tables

namespace Asks

variable {asked asked' : List (Mutation × ServerAnswer)}

theorem trans (h : Asks asked s s₁) (h' : Asks asked' s₁ s₂) : Asks (asked ++ asked') s s₂ where
  list := h'.list.trans h.list
  exchanges := by rw [h'.exchanges, h.exchanges, List.append_assoc]
  tables := h.tables.trans h'.tables

theorem exchangesUntil (h : Asks asked s s₁) (h' : s₂.calls = s₁.calls) :
    s.exchangesUntil s₂ = asked := by
  have hlater : s₂.exchanges = s₁.exchanges := by
    rw [ContactScene.exchanges, h', ContactScene.exchanges]
  rw [ContactScene.exchangesUntil, hlater, h.exchanges, List.drop_left]

end Asks

/-- The server carries a call out, or does not and the call fails. -/
theorem call_cases (server : ContactServer σ) (s : ContactScene σ) (m : Mutation) :
    (∃ s₁, s.call server m = (none, s₁) ∧ Asks [(m, .done)] s s₁) ∨
    ∃ e answer s₁, answer ≠ .done ∧ s.call server m = (some e, s₁) ∧ Asks [(m, answer)] s s₁ := by
  obtain ⟨answer, hanswer⟩ : ∃ answer, (server.mutate
    (fun h => (s.tables.inspect ⟨.contact, h⟩).getD "") s.server m).1 = answer := ⟨_, rfl⟩
  have hasks : Asks [(m, answer)] s (s.call server m).2 := by
    refine ⟨rfl, ?_, HandleTables.grows_exchangeContacts _ _ _⟩
    rw [exchanges, calls, call, List.filterMap_append, List.map_append, ← hanswer]
    rfl
  have hfailure : (s.call server m).1 = answer.error? m := by rw [call, ← hanswer]
  cases herror : answer.error? m with
  | none =>
    cases ServerAnswer.error?_eq_none.mp herror
    exact .inl ⟨_, Prod.ext (hfailure.trans herror) rfl, hasks⟩
  | some e =>
    refine .inr ⟨e, answer, _, fun hdone => ?_, Prod.ext (hfailure.trans herror) rfl, hasks⟩
    rw [hdone] at herror
    cases herror

/-- Members are added to the new group if there are any. -/
def copying (target : String) (members : SortedSet Handle) : List (Mutation × ServerAnswer) :=
  if members.isEmpty then [] else [(.addToGroup target members, .done)]

section Copying

variable {target target' old : String} {members : SortedSet Handle} {answer answer' : ServerAnswer}

theorem eq_of_created (h : (.createGroups [target], .done) ∈
    (.createGroups [target'], .done) :: copying target' members ++ [(.removeGroup old, answer)]) :
    target = target' := by
  unfold copying at h
  split at h <;> simpa using h

theorem eq_done_of_removed (h : (.removeGroup old, answer) ∈
    (.createGroups [target], .done) :: copying target members ++ [(.removeGroup old, .done)]) :
    answer = .done := by
  unfold copying at h
  split at h <;> simpa using h

/-- The members that were added, if there were any, are all the members. -/
theorem ite_added (target old : String) :
    (if (.addToGroup target members, .done) ∈
        (.createGroups [target], .done) :: copying target members ++ [(.removeGroup old, answer)]
      then members else .empty) = members := by
  unfold copying
  cases hempty : members.isEmpty with
  | true =>
    have hnobody : members = .empty :=
      SortedSet.ext_mem fun h => by simp [SortedSet.isEmpty_iff.mp hempty h]
    simp [hnobody]
  | false => simp

end Copying

theorem copy_cases (server : ContactServer σ) (s : ContactScene σ) (target : String)
    (members : SortedSet Handle) :
    (∃ s₁, (if members.isEmpty then (none, s) else s.call server (.addToGroup target members)) =
      (none, s₁) ∧ Asks (copying target members) s s₁) ∨
    ∃ e answer s₁, answer ≠ .done ∧ members.isEmpty = false ∧
      (if members.isEmpty then (none, s) else s.call server (.addToGroup target members)) =
        (some e, s₁) ∧ Asks [(.addToGroup target members, answer)] s s₁ := by
  unfold copying
  cases hempty : members.isEmpty with
  | true => exact .inl ⟨s, rfl, rfl, (List.append_nil _).symm, .refl _⟩
  | false =>
    obtain ⟨s₁, hcall, hasked⟩ | ⟨e, answer, s₁, hrefused, hcall, hasked⟩ :=
      s.call_cases server (.addToGroup target members)
    · exact .inl ⟨s₁, hcall, hasked⟩
    · exact .inr ⟨e, answer, s₁, hrefused, rfl, hcall, hasked⟩

/-- What asking for an emulated renaming comes to: the creation is refused, or the addition, or the
removal, or nothing is. -/
theorem emulateRename_cases (server : ContactServer σ) (s : ContactScene σ)
    (old target : String) (members : SortedSet Handle) :
    (∃ e answer s₁, answer ≠ .done ∧ Asks [(.createGroups [target], answer)] s s₁ ∧
      s.emulateRename server old target members = (some e, s₁)) ∨
    (∃ e answer s₁, answer ≠ .done ∧ members.isEmpty = false ∧
      Asks [(.createGroups [target], .done), (.addToGroup target members, answer)] s s₁ ∧
      s.emulateRename server old target members = (some e, s₁.groupsCreated server [target])) ∨
    (∃ e answer s₁, answer ≠ .done ∧
      Asks ((.createGroups [target], .done) :: copying target members ++
        [(.removeGroup old, answer)]) s s₁ ∧
      s.emulateRename server old target members =
        (some e, s₁.groupsChanged server members [target] [])) ∨
    (∃ s₁, Asks ((.createGroups [target], .done) :: copying target members ++
        [(.removeGroup old, .done)]) s s₁ ∧
      s.emulateRename server old target members = (none, s₁)) := by
  unfold emulateRename
  obtain ⟨s₁, hcreate, hcreated⟩ | ⟨e, answer, s₁, hrefused, hcreate, hasked⟩ :=
    s.call_cases server (.createGroups [target])
  case inr => exact .inl ⟨e, answer, s₁, hrefused, hasked, by rw [hcreate]⟩
  rw [hcreate]
  dsimp only
  obtain ⟨s₂, hcopy, hcopied⟩ | ⟨e, answer, s₂, hrefused, hsome, hcopy, hasked⟩ :=
    s₁.copy_cases server target members
  case inr =>
    exact .inr (.inl ⟨e, answer, s₂, hrefused, hsome, hcreated.trans hasked, by rw [hcopy]⟩)
  rw [hcopy]
  dsimp only
  obtain ⟨s₃, hremove, hremoved⟩ | ⟨e, answer, s₃, hrefused, hremove, hasked⟩ :=
    s₂.call_cases server (.removeGroup old)
  case inr =>
    refine .inr (.inr (.inl ⟨e, answer, s₃, hrefused, (hcreated.trans hcopied).trans hasked, ?_⟩))
    rw [hremove]
  exact .inr (.inr (.inr ⟨s₃, (hcreated.trans hcopied).trans hremoved, by rw [hremove]⟩))

/-! ## Memberships by target -/

theorem membership?_announcePending (s : ContactScene σ) (t : ContactTarget) :
    s.announcePending.list.membership? t = s.list.membership? t := by
  unfold announcePending
  dsimp only
  split
  · rfl
  · simp only [ContactList.membership?, SortedMap.get?_mapValues, Option.map_map]
    congr 1
    funext c
    by_cases hc : c.announced = true
    · simp [hc]
    · simp [hc, ContactChannel.announce]

theorem calls_announcePending (s : ContactScene σ) : s.announcePending.calls = s.calls := by
  unfold announcePending
  dsimp only
  split
  · rfl
  · simp [calls, List.filterMap_append, Effect.call?]

theorem membership?_change_ne {t t' : ContactTarget} (ht : t' ≠ t) (c : MembershipChange) :
    (s.change t c).list.membership? t' = s.list.membership? t' := by
  unfold change updateMembership
  split
  · rfl
  · simp [ContactList.membership?, ContactList.put, SortedMap.get?_insert, ht]

theorem membership?_change_self (t : ContactTarget) (c : MembershipChange) :
    (s.change t c).list.membership? t =
      (s.list.membership? t).map fun m => (m.change c).membership := by
  unfold change updateMembership
  cases hc : s.list.channels.get? t with
  | none => simp [ContactList.membership?, hc]
  | some ch => simp [ContactList.membership?, ContactList.put, hc]

/-- A channel is opened with nobody in it, and the others stay as they are. -/
theorem membership?_tryOpen {t : ContactTarget} (h : s.tables.Gives t.entity t.name)
    (hnew : ¬ s.list.HasChannel t) :
    (∃ m, (s.tryOpen t).list.membership? t = some m ∧ m.standings = .empty) ∧
      ∀ t', t' ≠ t → (s.tryOpen t).list.membership? t' = s.list.membership? t' := by
  obtain hsame | ⟨r, c, -, hvacant, hopened, -⟩ := s.tryOpen_cases t
  · have hthere : (s.tryOpen t).list.HasChannel t := (hasChannel_tryOpen h t).mpr (.inl rfl)
    rw [hsame] at hthere
    exact absurd hthere hnew
  · rw [hopened]
    constructor
    · exact ⟨c.membership, by simp [ContactList.membership?, ContactList.put], hvacant.empty⟩
    · intro t' ht'
      simp [ContactList.membership?, ContactList.put, SortedMap.get?_insert, ht']

theorem local_dismiss (s : ContactScene σ) (t : ContactTarget) (c : ContactChannel)
    (reason : ChangeReason) (e : Error) : s.Local (s.dismiss t c reason e) := by
  let u := c.membership.removeAll reason
  have hemptied : s.Local
      { s with
        tables := s.tables.exchangeContacts u.retained u.released
        effects := s.effects ++ u.signal.toList.map (Effect.signal c.path) } := by
    refine .of_effects rfl rfl ?_ (HandleTables.grows_exchangeContacts _ _ _)
    intro effect he
    obtain ⟨signal, -, rfl⟩ := List.mem_map.mp he
    exact ⟨rfl, rfl⟩
  exact hemptied.trans (local_close _ t _ e)

/-! ## Notices about groups call nobody -/

theorem calls_tryOpenGroups (s : ContactScene σ) (names : List String) :
    (s.tryOpenGroups names).announcePending.calls = s.calls := by
  rw [calls_announcePending]
  exact (Local.foldl (fun s name => local_tryOpen s (.group name)) names s).calls

theorem calls_groupsCreated (s : ContactScene σ) (names : List String) :
    (s.groupsCreated server names).calls = s.calls := by
  unfold groupsCreated
  split
  · exact calls_tryOpenGroups s _
  · rfl

theorem calls_groupsChanged (s : ContactScene σ) (contacts : SortedSet Handle)
    (added removed : List String) :
    (s.groupsChanged server contacts added removed).calls = s.calls := by
  have hmoved : ∀ (p : Place) (names : List String) (s : ContactScene σ),
      (names.foldl (fun s name =>
        s.change (.group name) (.ofSet contacts p .unstated)) s).calls = s.calls :=
    fun p names s => (Local.foldl (fun s name => local_change s (.group name) _) names s).calls
  unfold groupsChanged
  split
  · rw [hmoved, hmoved, calls_tryOpenGroups]
  · rfl

theorem calls_groupRenamed (s : ContactScene σ) (old target : String) :
    (s.groupRenamed server old target).calls = s.calls := by
  unfold groupRenamed
  split
  · split
    · unfold moveGroup
      split
      · rfl
      · dsimp only
        rw [(local_dismiss _ _ _ _ _).calls, (local_change _ _ _).calls, calls_announcePending,
          (local_tryOpen _ _).calls]
        rfl
    · rfl
  · rfl

/-! ## A channel for the new group -/

/-- The members that come into an empty group are its members. -/
theorem members_change_of_empty {m : Membership} (hm : m.standings = .empty)
    (members : SortedSet Handle) (provenance : Provenance) :
    (m.change (.ofSet members .member provenance)).membership.members = members := by
  refine SortedSet.ext_mem fun h => ?_
  rw [Membership.mem_members, Membership.change_get?, MembershipChange.get?_ofSet, hm]
  by_cases hh : h ∈ members
  · simp [hh, Standing.ofPlace?]
  · simp [hh]

theorem members_of_empty {m : Membership} (hm : m.standings = .empty) : m.members = .empty := by
  refine SortedSet.ext_mem fun h => ?_
  rw [Membership.mem_members, hm]
  simp

/-- There is a channel for a new group with these members, and all else is as it was. -/
structure Founds (target : String) (members : SortedSet Handle) (s s' : ContactScene σ) :
    Prop where
  founded : ∃ m, s'.list.membership? (.group target) = some m ∧ m.members = members
  others : ∀ t, t ≠ .group target → s'.list.membership? t = s.list.membership? t

section Founding

variable {target : String}

/-- The channel of a group is opened and, once the roster is there, announced. -/
theorem opened_group (hgives : s.tables.Gives .group target)
    (hnew : ¬ s.list.HasChannel (.group target)) :
    let s' := (s.tryOpen (.group target)).announcePending
    (∃ m, s'.list.membership? (.group target) = some m ∧ m.standings = .empty) ∧
      ∀ t, t ≠ .group target → s'.list.membership? t = s.list.membership? t := by
  obtain ⟨⟨m, hm, hempty⟩, hothers⟩ := membership?_tryOpen (t := .group target) hgives hnew
  refine ⟨⟨m, (membership?_announcePending _ _).trans hm, hempty⟩, fun t ht => ?_⟩
  exact (membership?_announcePending _ _).trans (hothers t ht)

variable (hcanonical : server.normaliseGroup target = some target)
  (hfollows : s.list.followsGroups = true) (hgives : s.tables.Gives .group target)
  (hnew : ¬ s.list.HasChannel (.group target))

include hcanonical hfollows hgives hnew

theorem founds_groupsCreated : Founds target .empty s (s.groupsCreated server [target]) := by
  have hopened : s.groupsCreated server [target] =
      (s.tryOpen (.group target)).announcePending := by
    rw [groupsCreated, if_pos hfollows, List.filterMap_cons, hcanonical]
    rfl
  obtain ⟨⟨m, hm, hempty⟩, hothers⟩ := opened_group hgives hnew
  rw [hopened]
  exact ⟨⟨m, hm, members_of_empty hempty⟩, hothers⟩

theorem founds_groupsChanged (hreceived : s.list.roster = .received)
    (members : SortedSet Handle) :
    Founds target members s (s.groupsChanged server members [target] []) := by
  have hopened : s.groupsChanged server members [target] [] =
      (s.tryOpen (.group target)).announcePending.change (.group target)
        (.ofSet members .member .unstated) := by
    rw [groupsChanged, if_pos ⟨hfollows, hreceived⟩, List.filterMap_cons, hcanonical]
    rfl
  obtain ⟨⟨m, hm, hempty⟩, hothers⟩ := opened_group hgives hnew
  rw [hopened]
  refine ⟨⟨_, ?_, members_change_of_empty hempty members .unstated⟩, fun t ht => ?_⟩
  · rw [membership?_change_self, hm, Option.map_some]
  · rw [membership?_change_ne ht, hothers t ht]

/-- A group that takes over the name of another has a channel. -/
theorem groupRenamed_opens {old : String} (hold : server.normaliseGroup old = some old)
    {m : Membership} (hm : s.list.membership? (.group old) = some m) :
    ∃ m', (s.groupRenamed server old target).list.membership? (.group target) = some m' := by
  rw [groupRenamed, if_pos hfollows, hold, hcanonical]
  dsimp only
  unfold moveGroup
  rw [ContactList.group?]
  cases hc : s.list.channels.get? (.group old) with
  | none => simp [ContactList.membership?, hc] at hm
  | some c =>
    have hdetached : ¬ (s.detach (.group old)).list.HasChannel (.group target) := by
      rw [ContactList.hasChannel_iff]
      rintro ⟨c', hc'⟩
      simp only [detach, ContactList.remove, SortedMap.get?_erase] at hc'
      split at hc'
      · cases hc'
      · exact hnew (ContactList.hasChannel_iff.mpr ⟨c', hc'⟩)
    obtain ⟨⟨m', hm', -⟩, -⟩ := opened_group (s := s.detach (.group old)) hgives hdetached
    dsimp only
    exact ⟨_, by rw [list_dismiss, membership?_change_self, hm', Option.map_some]⟩

end Founding

/-! ## The whole renaming -/

/-- What a client's renaming comes to that asked the server at least once. -/
theorem renameGroup_of_exchange {s s' : ContactScene σ} {old new : String}
    {outcome : Except ContactListRefusal Unit}
    (hgroups : s.list.capabilities.groups = .editable .emulated)
    (hrenamed : s.renameGroup server old new = (outcome, s'))
    (hasked : s.exchangesUntil s' ≠ []) :
    ∃ oldName target c, server.normaliseGroup old = some oldName ∧
      server.normaliseGroup new = some target ∧ s.list.group? oldName = some c ∧
      s.list.group? target = none ∧
      (match s.emulateRename server oldName target c.membership.members with
        | (some e, s) => (.error (.server e), s)
        | (none, s) => (.ok (), s.groupRenamed server oldName target)) = (outcome, s') := by
  unfold renameGroup at hrenamed
  split at hrenamed
  case h_1 =>
    cases hrenamed
    exact absurd List.drop_length hasked
  case h_2 rename oldName target members hchecked =>
    obtain ⟨_, _, _, c, hsame, hrename, hold, hnew, hc, hfree⟩ := checkRenaming_eq_ok hchecked
    cases hsame
    rw [ContactList.renameStrategy, hgroups] at hrename
    cases hrename
    exact ⟨oldName, target, c, hold, hnew, hc, hfree, hrenamed⟩

/-- The law of emulated renaming. Once the server has created the new group, there is a channel for
it in the end, and on a failure the old channel is there with its membership as it was and the new
group has the old members if they were added and nobody otherwise. Only if the removal of the old
group is refused while the roster is not there, the contact list is as it was before. -/
theorem renameGroup_keeps_target
    (hidempotent : ∀ name canonical, server.normaliseGroup name = some canonical →
      server.normaliseGroup canonical = some canonical)
    {s s' : ContactScene σ} {old new target : String} {outcome : Except ContactListRefusal Unit}
    (hgroups : s.list.capabilities.groups = .editable .emulated)
    (hroster : s.list.roster ≠ .disconnected) (hgives : s.tables.Gives .group target)
    (hrenamed : s.renameGroup server old new = (outcome, s'))
    (hcreated : (.createGroups [target], .done) ∈ s.exchangesUntil s') :
    ∃ oldName m, server.normaliseGroup old = some oldName ∧
      server.normaliseGroup new = some target ∧
      s.list.membership? (.group oldName) = some m ∧
      ((s.list.roster = .received ∨ (∀ answer,
          (.removeGroup oldName, answer) ∈ s.exchangesUntil s' → answer = .done)) →
        ∃ m', s'.list.membership? (.group target) = some m' ∧
          (outcome ≠ .ok () →
            s'.list.membership? (.group oldName) = some m ∧
            m'.members =
              if (.addToGroup target m.members, .done) ∈ s.exchangesUntil s' then m.members
              else .empty)) ∧
      (s.list.roster ≠ .received → ∀ answer, answer ≠ .done →
        (.removeGroup oldName, answer) ∈ s.exchangesUntil s' →
        outcome ≠ .ok () ∧ s'.list = s.list ∧ ¬ s'.list.HasChannel (.group target)) := by
  obtain ⟨oldName, target', c, hold, hnew, hc, hfree, hrenamed⟩ :=
    renameGroup_of_exchange hgroups hrenamed (List.ne_nil_of_mem hcreated)
  have hcanonical := hidempotent _ _ hnew
  have hfollows : s.list.followsGroups = true := by
    simp [ContactList.followsGroups, hgroups, GroupSupport.isSupported, hroster]
  have hmembership : s.list.membership? (.group oldName) = some c.membership := by
    rw [ContactList.membership?, ← ContactList.group?, hc, Option.map_some]
  have habsent : ¬ s.list.HasChannel (.group target') := by
    rw [ContactList.hasChannel_iff]
    rintro ⟨c', hc'⟩
    cases hc'.symm.trans hfree
  have hne : ContactTarget.group oldName ≠ .group target' := by
    intro hsame
    exact habsent (ContactList.hasChannel_iff.mpr ⟨c, hsame ▸ hc⟩)
  refine ⟨oldName, c.membership, hold, ?_⟩
  obtain ⟨e, answer, s₁, hrefused, hasked, heq⟩ | ⟨e, answer, s₁, hrefused, hsome, hasked, heq⟩ |
      ⟨e, answer, s₁, hrefused, hasked, heq⟩ | ⟨s₁, hasked, heq⟩ :=
    s.emulateRename_cases server oldName target' c.membership.members
  · -- The creation was refused.
    rw [heq] at hrenamed
    cases hrenamed
    rw [hasked.exchangesUntil rfl] at hcreated
    simp [hrefused.symm] at hcreated
  all_goals
    have hfollows₁ : s₁.list.followsGroups = true := by rw [hasked.list, hfollows]
    have habsent₁ : ¬ s₁.list.HasChannel (.group target') := by rw [hasked.list]; exact habsent
    have hmembership₁ : s₁.list.membership? (.group oldName) = some c.membership := by
      rw [hasked.list, hmembership]
    rw [heq] at hrenamed
    cases hrenamed
  · -- The new group was created and stayed empty.
    rw [hasked.exchangesUntil (calls_groupsCreated s₁ [target'])] at hcreated ⊢
    have htarget : target = target' := by simpa using hcreated
    subst htarget
    obtain ⟨⟨m', hm', hmembers⟩, hothers⟩ :=
      founds_groupsCreated hcanonical hfollows₁ (hasked.tables.gives hgives) habsent₁
    refine ⟨hnew, hmembership, fun _ => ⟨m', hm', fun _ => ⟨?_, ?_⟩⟩, ?_⟩
    · rw [hothers _ hne, hmembership₁]
    · rw [if_neg (by simp [hrefused.symm]), hmembers]
    · intro _ answer' _ hremoved
      simp at hremoved
  · -- The members were added to the new group, if there were any.
    rw [hasked.exchangesUntil (calls_groupsChanged s₁ _ [target'] [])] at hcreated ⊢
    have htarget : target = target' := eq_of_created hcreated
    subst htarget
    refine ⟨hnew, hmembership, fun hkept => ?_, fun hmissing _ _ _ => ?_⟩
    · have hreceived : s₁.list.roster = .received := by
        rw [hasked.list]
        exact hkept.resolve_right fun hdone => hrefused (hdone answer (by simp))
      obtain ⟨⟨m', hm', hmembers⟩, hothers⟩ := founds_groupsChanged hcanonical hfollows₁
        (hasked.tables.gives hgives) habsent₁ hreceived c.membership.members
      refine ⟨m', hm', fun _ => ⟨?_, ?_⟩⟩
      · rw [hothers _ hne, hmembership₁]
      · rw [hmembers, ite_added]
    · have hunchanged : s₁.groupsChanged server c.membership.members [target] [] = s₁ :=
        if_neg fun h => hmissing (hasked.list ▸ h.2)
      rw [hunchanged]
      exact ⟨fun hok => (by cases hok), hasked.list, habsent₁⟩
  · -- Nothing was refused.
    rw [hasked.exchangesUntil (calls_groupRenamed s₁ oldName target')] at hcreated ⊢
    have htarget : target = target' := eq_of_created hcreated
    subst htarget
    obtain ⟨m', hm'⟩ := groupRenamed_opens hcanonical hfollows₁
      (hasked.tables.gives hgives) habsent₁ (hidempotent _ _ hold) hmembership₁
    refine ⟨hnew, hmembership, fun _ => ⟨m', hm', fun hfailed => absurd rfl hfailed⟩, ?_⟩
    intro _ answer hrefused hremoved
    exact absurd (eq_done_of_removed hremoved) hrefused

/-! ## A server in memory -/

/-- The server in memory renames in three steps. -/
def emulating : ContactServer MemoryRoster :=
  MemoryRoster.server ⟨true, true, false, true, .editable .emulated⟩ [] false

/-- A contact list without channels, with a contact Alice who is in the group of friends on the
server, and a server that refuses to remove groups. -/
def befriended : ContactScene MemoryRoster :=
  let (alice, contacts) := ((HandleTable.onDemand .contact).ensure "alice").toOption.getD
    (.first, .onDemand .contact)
  { list :=
      { capabilities := emulating.capabilities
        basePath := ⟨"/lists"⟩
        queueLimit := 256
        roster := .pending
        channels := .empty }
    server :=
      { (MemoryRoster.empty.carryOut (.storeContacts (.ofList [alice]))).join "friends"
          (.ofList [alice]) with
        refused := ["remove-group:"] }
    tables := ⟨contacts.retain alice, none, some (.onDemand .list), some (.onDemand .group)⟩
    effects := [] }

/-- Friends are to be called pals, once the roster is there: the server creates the new group and
adds the members, but does not remove the old one, and both have channels. -/
theorem befriended_keeps_both :
    let s := befriended.rosterReceived emulating
    let renamed := s.renameGroup emulating "friends" " pals "
    s.list.capabilities.groups = .editable .emulated ∧ s.list.roster ≠ .disconnected ∧
      s.tables.Gives .group "pals" ∧
      (.createGroups ["pals"], .done) ∈ s.exchangesUntil renamed.2 ∧ renamed.1.isOk = false ∧
      ∃ m m', s.list.membership? (.group "friends") = some m ∧ m.members = .ofList [.first] ∧
        renamed.2.list.membership? (.group "friends") = some m ∧
        renamed.2.list.membership? (.group "pals") = some m' ∧ m'.members = m.members := by
  intro s renamed
  have hgroups : s.list.capabilities.groups = .editable .emulated := by decide +kernel
  have hreceived : s.list.roster = .received := by decide +kernel
  have hroster : s.list.roster ≠ .disconnected := by rw [hreceived]; decide
  have hgives : s.tables.Gives .group "pals" := by decide +kernel
  have hcreated : (.createGroups ["pals"], .done) ∈ s.exchangesUntil renamed.2 := by
    decide +kernel
  have hfailed : renamed.1.isOk = false := by decide +kernel
  have hadded : (.addToGroup "pals" (.ofList [.first]), .done) ∈ s.exchangesUntil renamed.2 := by
    decide +kernel
  have hfriends : (s.list.membership? (.group "friends")).map (·.members) =
      some (.ofList [.first]) := by decide +kernel
  have hrenamed : s.renameGroup emulating "friends" " pals " = (renamed.1, renamed.2) := rfl
  obtain ⟨oldName, m, hold, -, hm, hkept, -⟩ := renameGroup_keeps_target
    (fun _ _ => MemoryRoster.idempotent_normaliseGroup _ _ _) hgroups hroster hgives hrenamed
    hcreated
  cases hold.symm.trans (by decide +kernel : emulating.normaliseGroup "friends" = some "friends")
  obtain ⟨m', hm', hboth⟩ := hkept (.inl hreceived)
  obtain ⟨hmold, hmembers⟩ := hboth fun hok => by
    rw [hok] at hfailed
    cases hfailed
  rw [hm, Option.map_some, Option.some.injEq] at hfriends
  rw [hfriends, if_pos hadded, ← hfriends] at hmembers
  exact ⟨hgroups, hroster, hgives, hcreated, hfailed, m, m', hm, hfriends, hmold, hm', hmembers⟩

/-- If the roster is still on its way, there is no channel for the group that the server created. -/
theorem befriended_loses_track :
    let s := befriended.groupsCreated emulating ["friends"]
    let renamed := s.renameGroup emulating "friends" "pals"
    (.createGroups ["pals"], .done) ∈ s.exchangesUntil renamed.2 ∧
      s.list.roster = .pending ∧ s.tables.Gives .group "pals" ∧
      renamed.2.server.groups.contains "pals" = true ∧
      renamed.2.list.membership? (.group "pals") = none := by
  decide +kernel

end ContactScene

end Telepathy

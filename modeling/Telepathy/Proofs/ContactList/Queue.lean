import Telepathy.ContactList.Operation
import Telepathy.Proofs.Request.Report
import Telepathy.Proofs.Sorted.Entries

set_option autoImplicit false

/-!
# Requests that wait for a channel

A request that a contact list accepted waits in the queue of a channel until the contact list
reports on it. No operation of a contact list loses a token or makes one up: as often as a token
was queued or reported before, it is queued or reported afterwards. Only an offer brings a token,
and only disconnecting forgets some, because the connection answers these itself.
-/

namespace Telepathy

/-- The requests that an effect reports on. -/
def Effect.tokens : Effect → List RequestToken
  | report r => r.tokens
  | signal _ _ | called _ => []

/-- The requests that some effects report on. -/
def reportedTokens (effects : List Effect) : List RequestToken := effects.flatMap Effect.tokens

theorem reportedTokens_append (effects effects' : List Effect) :
    reportedTokens (effects ++ effects') = reportedTokens effects ++ reportedTokens effects' :=
  List.flatMap_append

theorem reportedTokens_signals {α : Type} (path : α → ObjectPath) (signal : α → Signal)
    (l : List α) : reportedTokens (l.map fun a => .signal (path a) (signal a)) = [] := by
  induction l with
  | nil => rfl
  | cons a l ih => exact ih

theorem reportedTokens_failed (tokens : List RequestToken) (e : Error) :
    reportedTokens (tokens.map fun token => .report (.failed token e)) = tokens := by
  induction tokens with
  | nil => rfl
  | cons token tokens ih => exact congrArg (token :: ·) ih

/-- The request that an effect satisfies by a channel that existed before. -/
def Effect.reused? : Effect → Option RequestToken
  | report (.alreadySatisfied token _) => some token
  | _ => none

/-- The requests that some effects satisfy by channels that existed before. -/
def reusedTokens (effects : List Effect) : List RequestToken := effects.filterMap Effect.reused?

theorem reusedTokens_append (effects effects' : List Effect) :
    reusedTokens (effects ++ effects') = reusedTokens effects ++ reusedTokens effects' :=
  List.filterMap_append

theorem reported_of_reused {effects : List Effect} {token : RequestToken}
    (h : token ∈ reusedTokens effects) : token ∈ reportedTokens effects := by
  obtain ⟨e, he, htoken⟩ := List.mem_filterMap.mp h
  refine List.mem_flatMap.mpr ⟨e, he, ?_⟩
  unfold Effect.reused? at htoken
  split at htoken
  · cases htoken
    exact List.mem_singleton_self _
  · cases htoken

namespace ContactList

/-- The tokens that wait on the channels, channel by channel. -/
def queuedTokens (l : ContactList) : List RequestToken := l.channels.values.flatMap (·.queued)

theorem queuedTokens_eq (l : ContactList) :
    l.queuedTokens = l.channels.toList.flatMap (·.2.queued) := by
  rw [queuedTokens, SortedMap.values, List.flatMap_map]

/-- A channel has its own queue; the other channels have theirs. -/
theorem queuedTokens_perm {l : ContactList} {t : ContactTarget} {c : ContactChannel}
    (h : l.channels.get? t = some c) :
    l.queuedTokens.Perm (c.queued ++ (l.remove t).queuedTokens) := by
  rw [queuedTokens_eq, queuedTokens_eq]
  exact (SortedMap.toList_perm_erase h).flatMap_right _

theorem queuedTokens_put (l : ContactList) (t : ContactTarget) (c : ContactChannel) :
    (l.put t c).queuedTokens.Perm (c.queued ++ (l.remove t).queuedTokens) := by
  rw [queuedTokens_eq, queuedTokens_eq]
  exact (SortedMap.toList_insert_perm l.channels t c).flatMap_right _

/-- A request waits for the channel of a target. -/
def QueuedAt (l : ContactList) (t : ContactTarget) (token : RequestToken) : Prop :=
  ∃ c, l.channels.get? t = some c ∧ token ∈ c.queued

theorem mem_queuedTokens {l : ContactList} {token : RequestToken} :
    token ∈ l.queuedTokens ↔ ∃ t, l.QueuedAt t token := by
  rw [queuedTokens, List.mem_flatMap]
  constructor
  · rintro ⟨c, hc, htoken⟩
    obtain ⟨t, ht⟩ := SortedMap.mem_values.mp hc
    exact ⟨t, c, ht, htoken⟩
  · rintro ⟨t, c, ht, htoken⟩
    exact ⟨c, SortedMap.mem_values.mpr ⟨t, ht⟩, htoken⟩

/-- A request that is queued once waits for one channel only. -/
theorem QueuedAt.unique {l : ContactList} {t t' : ContactTarget} {token : RequestToken}
    (h : l.QueuedAt t token) (h' : l.QueuedAt t' token) (hnodup : l.queuedTokens.Nodup) :
    t' = t := by
  obtain ⟨c, hc, hqueued⟩ := h
  obtain ⟨c', hc', hqueued'⟩ := h'
  refine Decidable.byContradiction fun hne => ?_
  have hother : token ∈ (l.remove t).queuedTokens := by
    refine mem_queuedTokens.mpr ⟨t', c', ?_, hqueued'⟩
    rw [remove, SortedMap.get?_erase, if_neg hne]
    exact hc'
  have hsplit := (queuedTokens_perm hc).nodup_iff.mp hnodup
  exact (List.nodup_append.mp hsplit).2.2 token hqueued token hother rfl

theorem remove_of_absent {l : ContactList} {t : ContactTarget} (h : l.channels.get? t = none) :
    l.remove t = l := by
  rw [remove, SortedMap.erase_of_absent h]

end ContactList

namespace ContactScene

variable {σ : Type} {server : ContactServer σ} {s s₁ s₂ : ContactScene σ}

/-- How often a token waits on a channel or was reported on. -/
def tokenTally (s : ContactScene σ) (token : RequestToken) : Nat :=
  s.list.queuedTokens.count token + (reportedTokens s.effects).count token

/-- What operations keep that accept no request: every token waits or is reported on as often as
before, and no further request is satisfied by a channel that existed before. -/
structure KeepsTokens (s s' : ContactScene σ) : Prop where
  tally : ∀ token, s'.tokenTally token = s.tokenTally token
  reused : reusedTokens s'.effects = reusedTokens s.effects

namespace KeepsTokens

theorem refl (s : ContactScene σ) : s.KeepsTokens s := ⟨fun _ => rfl, rfl⟩

theorem trans (h : s.KeepsTokens s₁) (h' : s₁.KeepsTokens s₂) : s.KeepsTokens s₂ :=
  ⟨fun token => (h'.tally token).trans (h.tally token), h'.reused.trans h.reused⟩

/-- What touches no queue and reports on no request keeps all tokens. -/
theorem of_quiet {effects : List Effect}
    (hqueued : ∀ token, s₁.list.queuedTokens.count token = s.list.queuedTokens.count token)
    (heffects : s₁.effects = s.effects ++ effects) (hreported : reportedTokens effects = [])
    (hreused : reusedTokens effects = []) : s.KeepsTokens s₁ where
  tally token := by
    rw [tokenTally, tokenTally, hqueued, heffects, reportedTokens_append, hreported,
      List.append_nil]
  reused := by rw [heffects, reusedTokens_append, hreused, List.append_nil]

end KeepsTokens

theorem reused_signals (path : ObjectPath) (signals : List Signal) :
    reusedTokens (signals.map (Effect.signal path)) = [] := by
  induction signals with
  | nil => rfl
  | cons signal signals ih => exact ih

theorem reused_failed (tokens : List RequestToken) (e : Error) :
    reusedTokens (tokens.map fun token => .report (.failed token e)) = [] := by
  induction tokens with
  | nil => rfl
  | cons token tokens ih => exact ih

/-! ## Steps that touch no queue -/

theorem keepsTokens_call (server : ContactServer σ) (s : ContactScene σ) (m : Mutation) :
    s.KeepsTokens (s.call server m).2 :=
  .of_quiet (fun _ => rfl) rfl rfl rfl

theorem keepsTokens_updateMembership (s : ContactScene σ) (t : ContactTarget)
    (f : Membership → GroupUpdate) : s.KeepsTokens (s.updateMembership t f) := by
  unfold updateMembership
  cases h : s.list.channels.get? t with
  | none => exact .refl s
  | some c =>
    refine .of_quiet (fun token => ?_) rfl (reportedTokens_signals _ _ _) (reused_signals _ _)
    rw [(ContactList.queuedTokens_perm h).count_eq]
    exact (ContactList.queuedTokens_put _ _ _).count_eq token

theorem keepsTokens_change (s : ContactScene σ) (t : ContactTarget) (c : MembershipChange) :
    s.KeepsTokens (s.change t c) :=
  keepsTokens_updateMembership s t _

/-- A new channel has nobody waiting. -/
theorem keepsTokens_openChannel {t : ContactTarget} {requested : Bool}
    (h : s.openChannel t requested = .ok s₁) : s.KeepsTokens s₁ := by
  unfold openChannel at h
  by_cases hc : s.list.channels.contains t = true
  · rw [if_pos hc] at h
    cases h
    exact .refl s
  · rw [if_neg hc] at h
    have habsent : s.list.channels.get? t = none := by
      simpa [SortedMap.contains] using hc
    cases he : s.tables.ensure t.entity t.name with
    | error e =>
      simp only [he] at h
      cases h
    | ok opened =>
      obtain ⟨handle, tables⟩ := opened
      simp only [he] at h
      cases h
      refine .of_quiet (fun token => ?_) (List.append_nil _).symm rfl rfl
      rw [(ContactList.queuedTokens_put _ _ _).count_eq, ContactList.remove_of_absent habsent,
        List.nil_append]

theorem keepsTokens_tryOpen (s : ContactScene σ) (t : ContactTarget) :
    s.KeepsTokens (s.tryOpen t) := by
  unfold tryOpen
  cases h : s.openChannel t false with
  | error e => exact .refl s
  | ok s₁ => exact keepsTokens_openChannel h

/-- A fold of steps that keep all tokens keeps them. -/
theorem keepsTokens_foldl {α : Type} {f : ContactScene σ → α → ContactScene σ}
    (hf : ∀ (s : ContactScene σ) a, s.KeepsTokens (f s a)) (l : List α) (s : ContactScene σ) :
    s.KeepsTokens (l.foldl f s) :=
  List.foldl_rel_of_step KeepsTokens.refl KeepsTokens.trans hf l s

/-! ## Steps that empty queues -/

/-- The reports of an announcement and the queues that are left make up all queues. -/
theorem count_announced (l : List (ContactTarget × ContactChannel)) (token : RequestToken) :
    (l.flatMap (·.2.queued)).count token =
      ((l.map fun e => (e.1, if e.2.announced then e.2 else e.2.announce)).flatMap
        (·.2.queued)).count token +
      ((l.filter fun e => !e.2.announced).flatMap (·.2.queued)).count token := by
  induction l with
  | nil => rfl
  | cons e l ih =>
    simp only [List.map_cons, List.flatMap_cons, List.filter_cons, List.count_append]
    cases h : e.2.announced with
    | true =>
      simp only [if_true, Bool.not_true, Bool.false_eq_true, if_false]
      omega
    | false =>
      have hempty : e.2.announce.queued = [] := rfl
      simp only [Bool.false_eq_true, if_false, hempty, List.count_nil, Bool.not_false, if_true,
        List.flatMap_cons, List.count_append]
      omega

/-- When channels are announced, whoever waits on one is reported on. -/
theorem keepsTokens_announcePending (s : ContactScene σ) : s.KeepsTokens s.announcePending := by
  unfold announcePending
  by_cases h : s.list.roster ≠ .received ∨
      (s.list.channels.toList.filter fun e => !e.2.announced) = []
  · simp only [if_pos h]
    exact .refl s
  · simp only [if_neg h]
    refine ⟨fun token => ?_, ?_⟩
    · have hreport : reportedTokens [.report (.newChannels
          ((s.list.channels.toList.filter fun e => !e.2.announced).map fun e =>
            (e.2.details e.1, e.2.queued)))] =
          (s.list.channels.toList.filter fun e => !e.2.announced).flatMap (·.2.queued) := by
        simp only [reportedTokens, List.flatMap_cons, List.flatMap_nil, List.append_nil,
          Effect.tokens, Report.tokens, List.flatMap_map]
      simp only [tokenTally, ContactList.queuedTokens_eq, SortedMap.mapValues,
        reportedTokens_append, hreport, List.count_append]
      have := count_announced s.list.channels.toList token
      omega
    · rw [reusedTokens_append]
      exact List.append_nil _

/-- A channel that is taken away takes its queue along. -/
theorem tokenTally_detach {t : ContactTarget} {c : ContactChannel}
    (h : s.list.channels.get? t = some c) (token : RequestToken) :
    s.tokenTally token = (s.detach t).tokenTally token + c.queued.count token := by
  have := (ContactList.queuedTokens_perm h).count_eq token
  rw [List.count_append] at this
  simp only [tokenTally, detach]
  omega

/-- Whoever waited on a channel that is closed is told that it failed. -/
theorem tokenTally_close (s : ContactScene σ) (t : ContactTarget) (c : ContactChannel) (e : Error)
    (token : RequestToken) :
    (s.close t c e).tokenTally token = s.tokenTally token + c.queued.count token ∧
      reusedTokens (s.close t c e).effects = reusedTokens s.effects := by
  have hlist : (s.close t c e).list = s.list := by
    unfold close
    cases c.announced <;> rfl
  have heffects : reportedTokens (s.close t c e).effects =
        reportedTokens s.effects ++ c.queued ∧
      reusedTokens (s.close t c e).effects = reusedTokens s.effects := by
    have hfail : ∃ effects, (s.close t c e).effects =
        (s.effects ++ c.queued.map fun token => .report (.failed token e)) ++ effects ∧
          reportedTokens effects = [] ∧ reusedTokens effects = [] := by
      unfold close
      cases c.announced with
      | true =>
        refine ⟨[.signal c.path .closed, .report (.closed c.path)], ?_, rfl, rfl⟩
        simp [fail, releaseChannel, emit]
      | false => exact ⟨[], (List.append_nil _).symm, rfl, rfl⟩
    obtain ⟨effects, heq, hreported, hreused⟩ := hfail
    rw [heq, reportedTokens_append, reportedTokens_append, reportedTokens_failed, hreported,
      List.append_nil, reusedTokens_append, reusedTokens_append, reused_failed, hreused,
      List.append_nil, List.append_nil]
    exact ⟨rfl, rfl⟩
  refine ⟨?_, heffects.2⟩
  simp only [tokenTally, hlist, heffects.1, List.count_append]
  omega

/-- Emptying a channel before it is closed makes no difference to whoever waits on it. -/
theorem tokenTally_dismiss (s : ContactScene σ) (t : ContactTarget) (c : ContactChannel)
    (reason : ChangeReason) (e : Error) (token : RequestToken) :
    (s.dismiss t c reason e).tokenTally token = s.tokenTally token + c.queued.count token ∧
      reusedTokens (s.dismiss t c reason e).effects = reusedTokens s.effects := by
  unfold dismiss
  have hemptied : s.KeepsTokens
      { s with
        tables := s.tables.exchangeContacts (c.membership.removeAll reason).retained
          (c.membership.removeAll reason).released
        effects := s.effects ++
          (c.membership.removeAll reason).signal.toList.map (Effect.signal c.path) } :=
    .of_quiet (fun _ => rfl) rfl (reportedTokens_signals _ _ _) (reused_signals _ _)
  obtain ⟨htally, hreused⟩ := tokenTally_close _ t
    { c with membership := (c.membership.removeAll reason).membership } e token
  exact ⟨htally.trans (by rw [hemptied.tally]), hreused.trans hemptied.reused⟩

/-- Taking a channel away and closing it in the end keeps all tokens, if what happens in between
does. -/
theorem keepsTokens_closing {t : ContactTarget} {c : ContactChannel}
    (h : s.list.channels.get? t = some c) (hmeanwhile : (s.detach t).KeepsTokens s₁)
    (hclosed : ∀ token, s₂.tokenTally token = s₁.tokenTally token + c.queued.count token ∧
      reusedTokens s₂.effects = reusedTokens s₁.effects) : s.KeepsTokens s₂ where
  tally token := by
    rw [(hclosed token).1, hmeanwhile.tally, ← tokenTally_detach h]
  reused := (hclosed ⟨0⟩).2.trans hmeanwhile.reused

theorem keepsTokens_closeGroup (s : ContactScene σ) (name : String) :
    s.KeepsTokens (s.closeGroup name) := by
  unfold closeGroup
  cases h : s.list.group? name with
  | none => exact .refl s
  | some c => exact keepsTokens_closing h (.refl _) (tokenTally_dismiss _ _ c _ _)

/-- When the roster cannot be had, whoever waits for it is told so. -/
theorem keepsTokens_rosterFailed (s : ContactScene σ) (e : Error) :
    s.KeepsTokens (s.rosterFailed e) := by
  unfold rosterFailed
  by_cases h : s.list.roster = .pending
  · rw [if_pos h]
    refine ⟨fun token => ?_, ?_⟩
    · have hempty : ContactList.queuedTokens
          { s.list with
            roster := .failed e
            channels := s.list.channels.mapValues fun _ c => { c with queued := [] } } = [] := by
        rw [ContactList.queuedTokens_eq, SortedMap.mapValues, List.flatMap_map]
        exact List.flatMap_eq_nil_iff.mpr fun _ _ => rfl
      have hwaiting : s.list.channels.values.flatMap (·.queued) = s.list.queuedTokens := rfl
      simp only [tokenTally, fail, hempty, hwaiting, reportedTokens_append, reportedTokens_failed,
        List.count_append, List.count_nil]
      omega
    · simp only [fail, reusedTokens_append, reused_failed, List.append_nil]
  · rw [if_neg h]
    exact .refl s

/-! ## Notices of the server -/

variable (server)

theorem keepsTokens_applyContacts (s : ContactScene σ) (changed departed : SortedSet Handle) :
    s.KeepsTokens (s.applyContacts server changed departed) := by
  unfold applyContacts
  exact (((keepsTokens_change s _ _).trans (keepsTokens_change _ _ _)).trans
    (keepsTokens_foldl (fun _ _ => keepsTokens_change _ _ _) _ _)).trans
    (keepsTokens_change _ _ _)

theorem keepsTokens_contactsChanged (s : ContactScene σ) (changed departed : SortedSet Handle) :
    s.KeepsTokens (s.contactsChanged server changed departed) := by
  unfold contactsChanged
  by_cases h : s.list.roster = .received
  · rw [if_pos h]
    exact keepsTokens_applyContacts server s changed departed
  · rw [if_neg h]
    exact .refl s

theorem keepsTokens_blockingChanged (s : ContactScene σ) (contacts : SortedSet Handle) :
    s.KeepsTokens (s.blockingChanged server contacts) := by
  unfold blockingChanged
  by_cases h : s.list.roster = .received
  · rw [if_pos h]
    exact keepsTokens_change s _ _
  · rw [if_neg h]
    exact .refl s

theorem keepsTokens_tryOpenGroups (s : ContactScene σ) (names : List String) :
    s.KeepsTokens (s.tryOpenGroups names) :=
  keepsTokens_foldl (fun _ _ => keepsTokens_tryOpen _ _) names s

theorem keepsTokens_groupsCreated (s : ContactScene σ) (names : List String) :
    s.KeepsTokens (s.groupsCreated server names) := by
  unfold groupsCreated
  by_cases h : s.list.followsGroups = true
  · rw [if_pos h]
    exact (keepsTokens_tryOpenGroups s _).trans (keepsTokens_announcePending _)
  · rw [if_neg h]
    exact .refl s

theorem keepsTokens_groupsRemoved (s : ContactScene σ) (names : List String) :
    s.KeepsTokens (s.groupsRemoved server names) := by
  unfold groupsRemoved
  by_cases h : s.list.followsGroups = true
  · rw [if_pos h]
    exact keepsTokens_foldl keepsTokens_closeGroup _ s
  · rw [if_neg h]
    exact .refl s

omit server in
/-- A group that gets another name leaves nobody waiting on the old one. -/
theorem keepsTokens_moveGroup (s : ContactScene σ) (old target : String) :
    s.KeepsTokens (s.moveGroup old target) := by
  unfold moveGroup
  cases h : s.list.group? old with
  | none => exact .refl s
  | some c =>
    refine keepsTokens_closing h ?_ (tokenTally_dismiss _ _ c _ _)
    exact ((keepsTokens_tryOpen _ _).trans (keepsTokens_announcePending _)).trans
      (keepsTokens_change _ _ _)

theorem keepsTokens_groupRenamed (s : ContactScene σ) (old target : String) :
    s.KeepsTokens (s.groupRenamed server old target) := by
  unfold groupRenamed
  by_cases h : s.list.followsGroups = true
  · rw [if_pos h]
    cases server.normaliseGroup old with
    | none => exact .refl s
    | some old =>
      cases server.normaliseGroup target with
      | none => exact .refl s
      | some target => exact keepsTokens_moveGroup s old target
  · rw [if_neg h]
    exact .refl s

theorem keepsTokens_groupsChanged (s : ContactScene σ) (contacts : SortedSet Handle)
    (added removed : List String) :
    s.KeepsTokens (s.groupsChanged server contacts added removed) := by
  unfold groupsChanged
  by_cases h : s.list.followsGroups ∧ s.list.roster = .received
  · rw [if_pos h]
    have hopened := (keepsTokens_tryOpenGroups s (added.filterMap server.normaliseGroup)).trans
      (keepsTokens_announcePending _)
    exact (hopened.trans (keepsTokens_foldl (fun _ _ => keepsTokens_change _ _ _) _ _)).trans
      (keepsTokens_foldl (fun _ _ => keepsTokens_change _ _ _) _ _)
  · rw [if_neg h]
    exact .refl s

/-! ## The initial roster -/

theorem keepsTokens_abandonGroup (e : Error) (s : ContactScene σ) (name : String) :
    s.KeepsTokens (s.abandonGroup e name) := by
  unfold abandonGroup
  cases h : s.list.group? name with
  | none => exact .refl s
  | some c => exact keepsTokens_closing h (.refl _) (tokenTally_close _ _ c e)

theorem keepsTokens_settleRequestedGroups (s : ContactScene σ) (known : List String) :
    s.KeepsTokens (s.settleRequestedGroups server known) := by
  unfold settleRequestedGroups
  cases hunknown : s.list.groupNames.filter (· ∉ known) with
  | nil => exact .refl s
  | cons name names =>
    by_cases hedit : s.list.capabilities.groups.isEditable = true
    · simp only [hedit, if_true]
      have hcall := keepsTokens_call server s (.createGroups (name :: names))
      cases (s.call server (.createGroups (name :: names))).1 with
      | none => exact hcall
      | some e => exact hcall.trans (keepsTokens_foldl (keepsTokens_abandonGroup e) _ _)
    · simp only [if_neg hedit]
      exact keepsTokens_foldl (keepsTokens_abandonGroup _) _ _

theorem keepsTokens_loadGroups (s : ContactScene σ) : s.KeepsTokens (s.loadGroups server) :=
  (keepsTokens_tryOpenGroups _ _).trans (keepsTokens_settleRequestedGroups server _ _)

theorem keepsTokens_loadBlocked (s : ContactScene σ) : s.KeepsTokens (s.loadBlocked server) := by
  unfold loadBlocked
  by_cases h : s.list.capabilities.canBlock = true
  · rw [if_pos h]
    exact keepsTokens_change s _ _
  · rw [if_neg h]
    exact .refl s

theorem keepsTokens_loadGroupMembers (s : ContactScene σ) (contacts : SortedSet Handle) :
    s.KeepsTokens (s.loadGroupMembers server contacts) := by
  unfold loadGroupMembers
  by_cases h : s.list.capabilities.groups.isSupported = true
  · rw [if_pos h]
    exact (keepsTokens_tryOpenGroups s _).trans
      (keepsTokens_foldl (fun _ _ => keepsTokens_change _ _ _) _ _)
  · rw [if_neg h]
    exact .refl s

theorem keepsTokens_openLists (s : ContactScene σ) : s.KeepsTokens s.openLists :=
  keepsTokens_foldl (fun _ _ => keepsTokens_tryOpen _ _) _ s

theorem keepsTokens_loadRoster (s : ContactScene σ) : s.KeepsTokens (s.loadRoster server) := by
  have hreceived : s.KeepsTokens { s with list := { s.list with roster := .received } } :=
    .of_quiet (fun _ => rfl) (List.append_nil _).symm rfl rfl
  have hfilled : ∀ (s : ContactScene σ) contacts, s.KeepsTokens (s.fillChannels server contacts) :=
    fun s contacts => ((keepsTokens_applyContacts server s contacts .empty).trans
      (keepsTokens_loadBlocked server _)).trans (keepsTokens_loadGroupMembers server _ contacts)
  exact (((hreceived.trans (keepsTokens_openLists _)).trans (keepsTokens_loadGroups server _)).trans
    (hfilled _ _)).trans (keepsTokens_announcePending _)

theorem keepsTokens_rosterReceived (s : ContactScene σ) :
    s.KeepsTokens (s.rosterReceived server) := by
  unfold rosterReceived
  by_cases h : s.list.roster = .pending
  · rw [if_pos h]
    exact keepsTokens_loadRoster server s
  · rw [if_neg h]
    exact .refl s

/-! ## Changes by clients -/

theorem keepsTokens_followAddition (s : ContactScene σ) (t : ContactTarget)
    (contacts : SortedSet Handle) : s.KeepsTokens (s.followAddition server t contacts) := by
  cases t with
  | list kind =>
    cases kind with
    | subscribe | publish | stored => exact keepsTokens_applyContacts server s _ _
    | deny => exact keepsTokens_blockingChanged server s contacts
  | group name => exact keepsTokens_groupsChanged server s contacts _ _

theorem keepsTokens_followRemoval (s : ContactScene σ) (t : ContactTarget)
    (contacts : SortedSet Handle) : s.KeepsTokens (s.followRemoval server t contacts) := by
  cases t with
  | list kind =>
    cases kind with
    | subscribe | publish | stored => exact keepsTokens_applyContacts server s _ _
    | deny => exact keepsTokens_blockingChanged server s contacts
  | group name => exact keepsTokens_groupsChanged server s contacts _ _

theorem keepsTokens_addMembers (s : ContactScene σ) (path : ObjectPath)
    (contacts : SortedSet Handle) (message : String) :
    s.KeepsTokens (s.addMembers server path contacts message).2 := by
  unfold addMembers
  cases s.list.checkAddition path contacts with
  | error r => exact .refl s
  | ok checked =>
    obtain ⟨t, outstanding⟩ := checked
    by_cases h : outstanding.isEmpty = true
    · simp only [if_pos h]
      exact .refl s
    · simp only [if_neg h]
      have hcall := keepsTokens_call server s (t.addition outstanding message)
      generalize s.call server (t.addition outstanding message) = called at hcall
      obtain ⟨failure, s₁⟩ := called
      cases failure with
      | some e => exact hcall
      | none => exact hcall.trans (keepsTokens_followAddition server s₁ t outstanding)

theorem keepsTokens_removeMembers (s : ContactScene σ) (path : ObjectPath)
    (contacts : SortedSet Handle) :
    s.KeepsTokens (s.removeMembers server path contacts).2 := by
  unfold removeMembers
  cases s.list.checkRemoval path contacts with
  | error r => exact .refl s
  | ok t =>
    have hcall := keepsTokens_call server s (t.removal contacts)
    simp only
    generalize s.call server (t.removal contacts) = called at hcall
    obtain ⟨failure, s₁⟩ := called
    cases failure with
    | some e => exact hcall
    | none => exact hcall.trans (keepsTokens_followRemoval server s₁ t contacts)

theorem keepsTokens_closeChannel (s : ContactScene σ) (path : ObjectPath) :
    s.KeepsTokens (s.closeChannel server path).2 := by
  unfold closeChannel
  cases s.list.checkClosing path with
  | error r => exact .refl s
  | ok name =>
    have hcall := keepsTokens_call server s (.removeGroup name)
    simp only
    generalize s.call server (.removeGroup name) = called at hcall
    obtain ⟨failure, s₁⟩ := called
    cases failure with
    | some e => exact hcall
    | none => exact hcall.trans (keepsTokens_groupsRemoved server s₁ [name])

theorem keepsTokens_emulateRename (s : ContactScene σ) (old target : String)
    (members : SortedSet Handle) :
    s.KeepsTokens (s.emulateRename server old target members).2 := by
  have hadd : ∀ s : ContactScene σ, s.KeepsTokens
      (if members.isEmpty then (none, s) else s.call server (.addToGroup target members)).2 := by
    intro s
    by_cases h : members.isEmpty = true
    · rw [if_pos h]
      exact .refl s
    · rw [if_neg h]
      exact keepsTokens_call server s _
  unfold emulateRename
  have hcreate := keepsTokens_call server s (.createGroups [target])
  generalize s.call server (.createGroups [target]) = created at hcreate
  obtain ⟨failure, s₁⟩ := created
  cases failure with
  | some e => exact hcreate
  | none =>
    have hadded := hcreate.trans (hadd s₁)
    simp only
    generalize (if members.isEmpty then (none, s₁)
      else s₁.call server (.addToGroup target members)) = added at hadded
    obtain ⟨failure, s₂⟩ := added
    cases failure with
    | some e => exact hadded.trans (keepsTokens_groupsCreated server s₂ [target])
    | none =>
      have hremoved := hadded.trans (keepsTokens_call server s₂ (.removeGroup old))
      simp only
      generalize s₂.call server (.removeGroup old) = removed at hremoved
      obtain ⟨failure, s₃⟩ := removed
      cases failure with
      | some e => exact hremoved.trans (keepsTokens_groupsChanged server s₃ members [target] [])
      | none => exact hremoved

theorem keepsTokens_renameGroup (s : ContactScene σ) (old target : String) :
    s.KeepsTokens (s.renameGroup server old target).2 := by
  unfold renameGroup
  cases checkRenaming server s.list old target with
  | error r => exact .refl s
  | ok checked =>
    obtain ⟨rename, old, target, members⟩ := checked
    have hcall : s.KeepsTokens (s.callRename server rename old target members).2 := by
      cases rename with
      | native => exact keepsTokens_call server s _
      | emulated => exact keepsTokens_emulateRename server s old target members
    simp only
    generalize s.callRename server rename old target members = renamed at hcall
    obtain ⟨failure, s₁⟩ := renamed
    cases failure with
    | some e => exact hcall
    | none => exact hcall.trans (keepsTokens_groupRenamed server s₁ old target)

/-- No operation but an offer changes which tokens are queued or reported on. -/
theorem keepsTokens_perform (s : ContactScene σ) (op : ContactOperation (SortedSet Handle)) :
    s.KeepsTokens (s.perform server op).2 := by
  cases op with
  | received => exact keepsTokens_rosterReceived server s
  | failed e => exact keepsTokens_rosterFailed s e
  | contactsChanged changed departed => exact keepsTokens_contactsChanged server s _ _
  | blockingChanged contacts => exact keepsTokens_blockingChanged server s _
  | groupsCreated names => exact keepsTokens_groupsCreated server s _
  | groupsRemoved names => exact keepsTokens_groupsRemoved server s _
  | groupRenamed old target => exact keepsTokens_groupRenamed server s _ _
  | groupsChanged contacts added removed => exact keepsTokens_groupsChanged server s _ _ _
  | addMembers path contacts message => exact keepsTokens_addMembers server s _ _ _
  | removeMembers path contacts => exact keepsTokens_removeMembers server s _ _
  | closeChannel path => exact keepsTokens_closeChannel server s _
  | renameGroup old target => exact keepsTokens_renameGroup server s _ _
  | legacyAdd path numbers message =>
    simp only [perform, legacyAddMembers]
    cases s.tables.contact.holdNumbers numbers with
    | error r => exact .refl s
    | ok contacts => exact keepsTokens_addMembers server s _ _ _
  | legacyRemove path numbers =>
    simp only [perform, legacyRemoveMembers]
    cases s.tables.contact.holdNumbers numbers with
    | error r => exact .refl s
    | ok contacts => exact keepsTokens_removeMembers server s _ _

end ContactScene

end Telepathy

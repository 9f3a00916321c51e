import Telepathy.Proofs.ContactList.EarlyGroups
import Telepathy.Proofs.ContactList.Learning
import Telepathy.Proofs.ContactList.Renaming
import Telepathy.Proofs.ContactList.Tidy

set_option autoImplicit false

/-!
# What becomes of a client's change

A client who adds contacts to a channel, removes some from it or closes it is refused, or the server
is asked once. Unless the server carries the change out, the contact list does nothing else. A
channel that is closed is the channel of an empty group, and the only one that goes away.
-/

namespace Telepathy

/-- Whether a client adds contacts to a channel, removes some from it or closes it. -/
def ContactOperation.IsAttempt {κ : Type} : ContactOperation κ → Prop
  | addMembers _ _ _ | removeMembers _ _ | closeChannel _ => True
  | _ => False

/-- An attempt is one still when its contacts are found. -/
theorem ContactOperation.IsAttempt.resolve {named : ContactOperation (List ContactName)}
    (h : named.IsAttempt) {t : HandleTable} {op : ContactOperation (SortedSet Handle)}
    (hop : (named.resolve t).1 = .ok op) : op.IsAttempt := by
  cases named with
  | addMembers path contacts message =>
    obtain ⟨found, -, rfl⟩ := Except.map_eq_ok.mp hop
    trivial
  | removeMembers path contacts =>
    obtain ⟨found, -, rfl⟩ := Except.map_eq_ok.mp hop
    trivial
  | closeChannel path =>
    cases hop
    trivial
  | _ => exact h.elim

/-- The channel that is found at a path is there, and at that path. -/
theorem ContactList.of_at? {l : ContactList} {path : ObjectPath} {t : ContactTarget}
    {c : ContactChannel} (h : l.at? path = some (t, c)) :
    l.channels.get? t = some c ∧ c.path = path := by
  rw [ContactList.at?, List.find?_eq_some_iff_append] at h
  obtain ⟨hpath, before, after, hsplit, -⟩ := h
  refine ⟨SortedMap.get?_eq_some_iff.mpr ?_, of_decide_eq_true hpath⟩
  rw [hsplit]
  exact List.mem_append_right _ List.mem_cons_self

/-- In an empty group nobody is anywhere. -/
theorem Membership.inPlace_of_isEmpty {m : Membership} (h : m.isEmpty = true) (p : Place) :
    m.inPlace p = .empty := by
  have hnone : m.standings.toList = [] := List.isEmpty_iff.mp h
  refine SortedSet.ext_mem fun x => iff_of_false (fun hx => ?_) (SortedSet.not_mem_empty x)
  obtain ⟨standing, hstanding, -⟩ := SortedMap.mem_keysWhere.mp hx
  rw [SortedMap.get?_eq_some_iff, hnone] at hstanding
  cases hstanding

namespace ContactScene

variable {σ : Type} {server : ContactServer σ} {s s' : ContactScene σ}

/-! ## Attempts -/

/-- What becomes of an attempt. -/
inductive Attempted (server : ContactServer σ) (s : ContactScene σ) : ContactOutcome σ → Prop
  | refused (r : ContactListRefusal) : Attempted server s (.error r, s)
  /-- There is nothing to do. -/
  | idle : Attempted server s (.ok (), s)
  | failed (m : Mutation) (e : Error) (h : (s.call server m).1 = some e) :
      Attempted server s (.error (.server e), (s.call server m).2)
  /-- The server has carried out a call, and the contact list follows it. -/
  | done (m : Mutation) (s' : ContactScene σ) (h : (s.call server m).1 = none)
      (hcalls : s'.calls = (s.call server m).2.calls) : Attempted server s (.ok (), s')

theorem calls_applyContacts (s : ContactScene σ) (changed departed : SortedSet Handle) :
    (s.applyContacts server changed departed).calls = s.calls :=
  (moves_applyContacts s changed departed).quiet.calls

theorem calls_blockingChanged (s : ContactScene σ) (contacts : SortedSet Handle) :
    (s.blockingChanged server contacts).calls = s.calls := by
  unfold blockingChanged
  split
  · exact (local_change s _ _).calls
  · rfl

theorem calls_followAddition (s : ContactScene σ) (t : ContactTarget)
    (contacts : SortedSet Handle) : (s.followAddition server t contacts).calls = s.calls := by
  unfold followAddition
  split
  · exact calls_applyContacts s _ _
  · exact calls_applyContacts s _ _
  · exact calls_applyContacts s _ _
  · exact calls_blockingChanged s _
  · exact calls_groupsChanged s _ _ _

theorem calls_followRemoval (s : ContactScene σ) (t : ContactTarget)
    (contacts : SortedSet Handle) : (s.followRemoval server t contacts).calls = s.calls := by
  unfold followRemoval
  split
  · exact calls_applyContacts s _ _
  · exact calls_applyContacts s _ _
  · exact calls_applyContacts s _ _
  · exact calls_blockingChanged s _
  · exact calls_groupsChanged s _ _ _

theorem local_closeGroup (s : ContactScene σ) (name : String) : s.Local (s.closeGroup name) := by
  unfold closeGroup
  split
  · exact .refl s
  · have hdetached : s.Local (s.detach (.group name)) := ⟨rfl, rfl, rfl, .refl _⟩
    exact hdetached.trans (local_dismiss _ _ _ _ _)

theorem calls_groupsRemoved (s : ContactScene σ) (names : List String) :
    (s.groupsRemoved server names).calls = s.calls := by
  unfold groupsRemoved
  split
  · exact (Local.foldl local_closeGroup _ s).calls
  · rfl

/-- The server is asked, and its new state is read if it has carried out the call. -/
theorem attempted_call (m : Mutation) {follow : ContactScene σ → ContactScene σ}
    (hcalls : ∀ s, (follow s).calls = s.calls) :
    Attempted server s
      (match s.call server m with
        | (some e, s) => (.error (.server e), s)
        | (none, s) => (.ok (), follow s)) := by
  have hfailed : ∀ e, (s.call server m).1 = some e →
      Attempted server s (.error (.server e), (s.call server m).2) := .failed m
  have hdone : ∀ s', (s.call server m).1 = none → s'.calls = (s.call server m).2.calls →
      Attempted server s (.ok (), s') := .done m
  generalize s.call server m = called at hfailed hdone
  obtain ⟨failure, s₁⟩ := called
  cases failure with
  | some e => exact hfailed e rfl
  | none => exact hdone _ rfl (hcalls s₁)

theorem attempted_addMembers (s : ContactScene σ) (path : ObjectPath)
    (contacts : SortedSet Handle) (message : String) :
    Attempted server s (s.addMembers server path contacts message) := by
  unfold addMembers
  split
  · exact .refused _
  · split
    · exact .idle
    · exact attempted_call _ fun s => calls_followAddition s _ _

theorem attempted_removeMembers (s : ContactScene σ) (path : ObjectPath)
    (contacts : SortedSet Handle) :
    Attempted server s (s.removeMembers server path contacts) := by
  unfold removeMembers
  split
  · exact .refused _
  · exact attempted_call _ fun s => calls_followRemoval s _ _

theorem attempted_closeChannel (s : ContactScene σ) (path : ObjectPath) :
    Attempted server s (s.closeChannel server path) := by
  unfold closeChannel
  split
  · exact .refused _
  · exact attempted_call _ fun s => calls_groupsRemoved s _

/-- Unless it has to be emulated, a renaming is such an attempt. -/
theorem attempted_renameGroup {s : ContactScene σ}
    (h : s.list.capabilities.groups ≠ .editable .emulated) (old target : String) :
    Attempted server s (s.renameGroup server old target) := by
  unfold renameGroup
  split
  · exact .refused _
  case h_2 rename old target members hchecked =>
    obtain ⟨_, _, _, _, hsame, hrename, -⟩ := checkRenaming_eq_ok hchecked
    cases hsame
    cases rename with
    | native => exact attempted_call _ fun s => calls_groupRenamed s _ _
    | emulated =>
      unfold ContactList.renameStrategy at hrename
      split at hrename <;> cases hrename
      contradiction

/-- One of these things becomes of an operation. -/
def Attempts (server : ContactServer σ) (s : ContactScene σ)
    (op : ContactOperation (SortedSet Handle)) : Prop :=
  ∃ outcome, Attempted server s outcome ∧ s.perform server op = concluded outcome

theorem attempts_of_isAttempt (s : ContactScene σ) {op : ContactOperation (SortedSet Handle)}
    (h : op.IsAttempt) : s.Attempts server op := by
  cases op with
  | addMembers path contacts message => exact ⟨_, attempted_addMembers s path contacts message, rfl⟩
  | removeMembers path contacts => exact ⟨_, attempted_removeMembers s path contacts, rfl⟩
  | closeChannel path => exact ⟨_, attempted_closeChannel s path, rfl⟩
  | _ => exact h.elim

/-- When an attempt succeeds, the server has carried out whatever it was asked. -/
theorem Attempted.answers_done {outcome : ContactOutcome σ} (h : Attempted server s outcome)
    (hok : outcome.1 = .ok ()) :
    ∃ calls : List ServerCall, outcome.2.calls = s.calls ++ calls ∧
      ∀ call ∈ calls, call.answer = .done := by
  cases h with
  | refused r => cases hok
  | idle => exact ⟨[], (List.append_nil _).symm, nofun⟩
  | failed m e h => cases hok
  | done m s' h hcalls =>
    refine ⟨_, hcalls.trans (s.calls_call m), fun call hcall => ?_⟩
    rw [List.mem_singleton.mp hcall]
    exact ServerAnswer.error?_eq_none.mp h

/-! ## Closing -/

/-- The group that a client may close is empty. -/
theorem checkClosing_eq_ok {l : ContactList} {path : ObjectPath} {name : String}
    (h : l.checkClosing path = .ok name) :
    ∃ c, l.at? path = some (.group name, c) ∧ c.membership.isEmpty = true := by
  obtain ⟨⟨t, c⟩, hchannel, h⟩ := Except.bind_eq_ok.mp h
  have hat := at?_of_channelAt hchannel
  cases t with
  | list k => cases h
  | group name' =>
    dsimp only at h
    split at h
    case isTrue => cases h
    case isFalse hempty =>
      split at h
      · cases h
      · cases h
        exact ⟨c, hat, by simpa using hempty⟩

/-- A channel that is closed is that of an empty group, and all that happens to the channels is that
this one goes away. -/
theorem closeChannel_eq_ok (hidempotent : ∀ name canonical,
      server.normaliseGroup name = some canonical →
        server.normaliseGroup canonical = some canonical)
    (htidy : s.list.Tidy server) {path : ObjectPath}
    (h : s.closeChannel server path = (.ok (), s')) :
    ∃ name c, s.list.at? path = some (.group name, c) ∧ c.membership.isEmpty = true ∧
      s'.list = s.list.remove (.group name) := by
  unfold closeChannel at h
  split at h
  case h_1 => cases h
  case h_2 name hchecked =>
    obtain ⟨c, hat, hempty⟩ := checkClosing_eq_ok hchecked
    obtain ⟨hc, -⟩ := ContactList.of_at? hat
    refine ⟨name, c, hat, hempty, ?_⟩
    obtain ⟨s₁, hcall, hasked⟩ | ⟨e, answer, s₁, -, hcall, -⟩ :=
      s.call_cases server (.removeGroup name)
    case inr =>
      rw [hcall] at h
      cases h
    rw [hcall] at h
    cases h
    obtain ⟨given, hgiven⟩ := htidy.spelled name c hc
    have hcanonical := hidempotent _ _ hgiven
    have hfollows : s₁.list.followsGroups = true := by
      rw [hasked.list]
      exact htidy.follows name c hc
    have hgroup : s₁.list.group? name = some c := by rw [hasked.list]; exact hc
    have hremoved : s₁.groupsRemoved server [name] = s₁.closeGroup name := by
      rw [groupsRemoved, if_pos hfollows, List.filterMap_cons, hcanonical]
      rfl
    rw [hremoved, closeGroup, hgroup, list_dismiss, detach, hasked.list]

end ContactScene

end Telepathy

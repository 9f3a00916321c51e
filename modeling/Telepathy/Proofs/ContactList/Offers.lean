import Telepathy.Proofs.ContactList.Requests
import Telepathy.Proofs.ContactList.Tasks

set_option autoImplicit false

/-!
# What becomes of a request that is offered

A contact list that is offered a request does one of six things, and whatever is to be shown of
offers is shown of these. In particular a request that insists on a new channel never waits behind
another, and is never satisfied by a channel that clients know.
-/

namespace Telepathy

/-- The settings are the same, and every channel was there with the same group; who waits for it and
whether clients know it may have changed. -/
structure ContactList.SameGroups (l l' : ContactList) : Prop where
  settings : l'.settings = l.settings
  memberships : ∀ t c', l'.channels.get? t = some c' →
    ∃ c, l.channels.get? t = some c ∧ c'.membership = c.membership

theorem ContactList.SameGroups.put {l : ContactList} {t : ContactTarget} {c c' : ContactChannel}
    (hc : l.channels.get? t = some c) (hsame : c'.membership = c.membership) :
    l.SameGroups (l.put t c') where
  settings := rfl
  memberships t' c'' hc'' := by
    rw [ContactList.put, SortedMap.get?_insert] at hc''
    split at hc''
    case isTrue heq =>
      cases hc''
      exact ⟨c, heq ▸ hc, hsame⟩
    case isFalse => exact ⟨c'', hc'', rfl⟩

namespace ContactScene

variable {σ : Type} {server : ContactServer σ} {s s₁ : ContactScene σ} {r : ChannelRequest}

/-- A target that a request may have: a list that the protocol has, unless a new one is asked for,
or a group under a name as the server spells it. -/
def Requestable (server : ContactServer σ) (l : ContactList) (r : ChannelRequest) :
    ContactTarget → Prop
  | .list k => k.isSupported l.capabilities = true ∧ r.method ≠ .create
  | .group name => l.followsGroups = true ∧ server.Spells name

/-- A channel may be opened for whatever may be requested. -/
theorem Requestable.openable {l : ContactList} {t : ContactTarget} (h : Requestable server l r t) :
    t.Openable server l := by
  cases t with
  | list k => exact h.1
  | group name => exact h

/-- What a contact list makes of a request. -/
inductive Offered (server : ContactServer σ) (s : ContactScene σ) (r : ChannelRequest) :
    Offer × ContactScene σ → Prop
  | declined : Offered server s r (.declined, s)
  | refused (e : Error) : Offered server s r (.accepted, s.fail [r.token] e)
  /-- The server was asked for a group, but it refused or the group has no handle. -/
  | denied (name : String) (e : Error) :
      Offered server s r (.accepted, (s.call server (.createGroups [name])).2.fail [r.token] e)
  | known {t : ContactTarget} {c : ContactChannel} (hc : s.list.channels.get? t = some c)
      (hknown : c.announced = true) (hmethod : r.method ≠ .create) :
      Offered server s r (.accepted, s.emit (.report (.alreadySatisfied r.token (c.details t))))
  /-- The channel, which may be new, is not announced yet. -/
  | waits {s₁ : ContactScene σ} {t : ContactTarget} {requested : Bool} {c : ContactChannel}
      (ht : Requestable server s.list r t) (hopen : s.openChannel t requested = .ok s₁)
      (hc : s₁.list.channels.get? t = some c) (hunknown : c.announced = false)
      (hmethod : r.method = .create → s.list.channels.get? t = none) :
      Offered server s r (.accepted, { s₁ with list := s₁.list.put t (c.queue r.token) })
  /-- The server has created a group for the request. -/
  | granted {s₁ : ContactScene σ} {name : String}
      (ht : Requestable server s.list r (.group name)) (hnone : s.list.group? name = none)
      (hreceived : s.list.roster = .received)
      (hopen : (s.call server (.createGroups [name])).2.openChannel (.group name) true = .ok s₁) :
      Offered server s r (.accepted, s₁.announceFor (.group name) r.token)

/-- What is known of a group that is served. -/
theorem of_checkGroupRequest {l : ContactList} {name : String}
    (h : checkGroupRequest server l r = .ok name) :
    l.followsGroups = true ∧ server.Spells name := by
  unfold checkGroupRequest at h
  split at h
  · cases h
  case isFalse hgroups =>
    have hgroups : l.capabilities.groups.isSupported = true := by simpa using hgroups
    dsimp only at h
    split at h
    · cases h
    case h_2 canonical hcanonical =>
      obtain ⟨_, hservable, h⟩ := Except.bind_eq_ok.mp h
      cases h
      refine ⟨?_, _, hcanonical⟩
      unfold ContactList.checkServable at hservable
      rw [ContactList.followsGroups, hgroups]
      split at hservable
      case h_1 hroster => simp [hroster]
      case h_2 hroster => simp [hroster]
      · cases hservable
      · cases hservable

/-- A request that a channel is to satisfy is satisfied at once, or it waits. -/
theorem offered_satisfy {t : ContactTarget} {requested : Bool}
    (ht : Requestable server s.list r t) (hopen : s.openChannel t requested = .ok s₁)
    (hmethod : r.method = .create → s.list.channels.get? t = none) :
    Offered server s r (.accepted, s₁.satisfy t r.token) := by
  obtain ⟨c, hc, hold⟩ := get?_of_openChannel hopen
  unfold satisfy
  simp only [hc]
  split
  case isTrue hknown =>
    obtain ⟨rfl, -⟩ | ⟨hnone, -⟩ := openChannel_cases hopen
    · refine .known hc hknown fun hcreate => ?_
      rw [hmethod hcreate] at hc
      cases hc
    · rw [hold hknown] at hnone
      cases hnone
  case isFalse hunknown => exact .waits ht hopen hc (Bool.eq_false_iff.mpr hunknown) hmethod

theorem offered_requestList (s : ContactScene σ) (r : ChannelRequest) :
    Offered server s r (.accepted, conclude r.token (s.requestList r)) := by
  unfold requestList
  cases hcheck : checkListRequest s.list r with
  | error refusal => exact .refused _
  | ok k =>
    obtain ⟨hsupported, hmethod⟩ := of_checkListRequest hcheck
    simp only
    cases hopen : s.openChannel (.list k) false with
    | error e => exact .refused _
    | ok s₁ =>
      exact offered_satisfy ⟨hsupported, hmethod⟩ hopen fun hcreate => absurd hcreate hmethod

theorem offered_createGroupFor {name : String} (ht : Requestable server s.list r (.group name))
    (hnone : s.list.group? name = none) (hreceived : s.list.roster = .received) :
    Offered server s r (.accepted, conclude r.token (s.createGroupFor server name r.token)) := by
  unfold createGroupFor
  split
  · exact .refused _
  · have hdenied : ∀ e, Offered server s r
        (.accepted, (s.call server (.createGroups [name])).2.fail [r.token] e) := .denied name
    have hgranted : ∀ s₁,
        (s.call server (.createGroups [name])).2.openChannel (.group name) true = .ok s₁ →
          Offered server s r (.accepted, s₁.announceFor (.group name) r.token) :=
      fun _ => .granted ht hnone hreceived
    generalize s.call server (.createGroups [name]) = called at hdenied hgranted
    obtain ⟨failure, s'⟩ := called
    cases failure with
    | some e => exact hdenied _
    | none =>
      simp only
      cases hopen : s'.openChannel (.group name) true with
      | error e => exact hdenied _
      | ok s₁ => exact hgranted s₁ hopen

theorem offered_requestGroup (s : ContactScene σ) (r : ChannelRequest) :
    Offered server s r (.accepted, conclude r.token (s.requestGroup server r)) := by
  unfold requestGroup
  cases hcheck : checkGroupRequest server s.list r with
  | error refusal => exact .refused _
  | ok name =>
    have ht : Requestable server s.list r (.group name) := of_checkGroupRequest hcheck
    simp only
    cases hgroup : s.list.group? name with
    | some c =>
      have hthere : s.list.HasChannel (.group name) := ContactList.hasChannel_iff.mpr ⟨c, hgroup⟩
      simp only [Option.isSome_some, if_true]
      split
      · exact .refused _
      case isFalse hmethod =>
        have hopen : s.openChannel (.group name) true = .ok s := if_pos hthere
        exact offered_satisfy ht hopen fun hcreate => absurd hcreate hmethod
    | none =>
      simp only [Option.isSome_none, Bool.false_eq_true, if_false]
      split
      case isTrue hreceived => exact offered_createGroupFor ht hgroup hreceived
      case isFalse =>
        cases hopen : s.openChannel (.group name) true with
        | error e => exact .refused _
        | ok s₁ => exact offered_satisfy ht hopen fun _ => hgroup

/-- Whatever is offered, one of these things becomes of it. -/
theorem offered_offer (server : ContactServer σ) (s : ContactScene σ) (r : ChannelRequest) :
    Offered server s r (s.offer server r) := by
  unfold offer
  split
  · exact .declined
  · split
    · exact offered_requestList s r
    · exact offered_requestGroup s r
    · exact .declined
    · exact .declined
    · exact .declined

/-- A request keeps what the opening of channels keeps, if it is a matter of the settings and of the
groups in the channels only. -/
theorem keeps_offer {I : ContactList → Prop}
    (hopening : ∀ {s s₁ : ContactScene σ} {t : ContactTarget} {requested : Bool}, I s.list →
      t.Openable server s.list → s.openChannel t requested = .ok s₁ → I s₁.list)
    (hgroups : ∀ {l l' : ContactList}, I l → l.SameGroups l' → I l') (r : ChannelRequest)
    (h : I s.list) : I (s.offer server r).2.list := by
  have hoffered := offered_offer server s r
  generalize s.offer server r = out at hoffered
  cases hoffered with
  | declined | refused | denied | known => exact h
  | waits ht hopen hc => exact hgroups (hopening h ht.openable hopen) (.put hc rfl)
  | @granted _ name ht hnone hreceived hopen =>
    have hcalled : I (s.call server (.createGroups [name])).2.list := h
    have hopened := hopening hcalled ht.openable hopen
    unfold announceFor
    split
    · exact hopened
    case h_2 hc => exact hgroups hopened (.put hc rfl)

/-- A request changes nothing of what is fixed. -/
theorem fixtures_offer (server : ContactServer σ) (s : ContactScene σ) (r : ChannelRequest) :
    (s.offer server r).2.list.fixtures = s.list.fixtures := by
  have hoffered := offered_offer server s r
  generalize s.offer server r = out at hoffered
  cases hoffered with
  | declined | refused | denied | known => rfl
  | waits ht hopen hc =>
    have hopened := fixtures_openChannel hopen
    exact hopened
  | granted ht hnone hreceived hopen =>
    have hopened := fixtures_openChannel hopen
    unfold announceFor
    split
    · exact hopened
    · exact hopened

end ContactScene

end Telepathy

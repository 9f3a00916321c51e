import Mathlib.Data.List.Perm.Subperm
import Telepathy.Proofs.ContactList.Outcomes
import Telepathy.Proofs.ContactList.Settled

set_option autoImplicit false

/-!
# How many requests wait for the roster

The requests that wait for the roster are spread over the channels of a contact list, so the limit
is one on their sum. Only an offer adds a request, and only while there is room; everything else
leaves the sum or lowers it, since a request that was reported on waits no longer. When the roster
cannot be retrieved, all that wait fail and none ever waits again.
-/

namespace Telepathy

/-- No more requests wait for the roster than may, and none once it is known that it will not
come. -/
structure ContactList.Bounded (limit : Nat) (l : ContactList) : Prop where
  configured : l.queueLimit = limit
  pending : l.roster = .pending → l.queuedRequests ≤ limit
  failed : ∀ e, l.roster = .failed e → l.queuedRequests = 0
  disconnected : l.roster = .disconnected → l.queuedRequests = 0

namespace ContactList

variable {l : ContactList} {limit : Nat}

theorem Bounded.of_received (hlimit : l.queueLimit = limit) (h : l.roster = .received) :
    l.Bounded limit where
  configured := hlimit
  pending hpending := nomatch h.symm.trans hpending
  failed _ hfailed := nomatch h.symm.trans hfailed
  disconnected hgone := nomatch h.symm.trans hgone

theorem Bounded.of_empty (hlimit : l.queueLimit = limit) (h : l.queuedRequests = 0) :
    l.Bounded limit :=
  ⟨hlimit, fun _ => h ▸ Nat.zero_le limit, fun _ _ => h, fun _ => h⟩

theorem serves_of_checkServable (h : l.checkServable = .ok ()) : l.Serves := by
  unfold checkServable at h
  split at h
  case h_1 hreceived => exact .inl hreceived
  case h_2 hpending =>
    split at h
    case isTrue => cases h
    case isFalse hroom => exact .inr ⟨hpending, Nat.not_le.mp hroom⟩
  · cases h
  · cases h

end ContactList

namespace ContactScene

variable {σ : Type} {server : ContactServer σ} {s s₁ : ContactScene σ} {limit : Nat}

/-! ## What waits afterwards -/

/-- Where only `tokens` are added to the accounts and nothing that was said is unsaid, no more than
these wait in addition. -/
theorem queuedRequests_le (tokens : List RequestToken) (h : s.Discreet s₁)
    (htally : ∀ token, s₁.tokenTally token = s.tokenTally token + tokens.count token) :
    s₁.list.queuedRequests ≤ s.list.queuedRequests + tokens.length := by
  obtain ⟨effects, heffects, -⟩ := h
  have hcount : ∀ token, s₁.list.queuedTokens.count token ≤
      (s.list.queuedTokens ++ tokens).count token := by
    intro token
    have htoken := htally token
    rw [tokenTally, tokenTally, heffects, reportedTokens_append, List.count_append] at htoken
    rw [List.count_append]
    omega
  have hlength := (List.subperm_iff_count.mpr hcount).length_le
  rwa [List.length_append, ← ContactList.queuedRequests_eq, ← ContactList.queuedRequests_eq]
    at hlength

theorem queuedRequests_perform (server : ContactServer σ) (s : ContactScene σ)
    (op : ContactOperation (SortedSet Handle)) :
    (s.perform server op).2.list.queuedRequests ≤ s.list.queuedRequests :=
  queuedRequests_le [] (discreet_perform s op) (keepsTokens_perform server s op).tally

theorem queuedRequests_offer (server : ContactServer σ) (s : ContactScene σ)
    (r : ChannelRequest) :
    (s.offer server r).2.list.queuedRequests ≤ s.list.queuedRequests + 1 := by
  have hdiscreet : s.Discreet (s.offer server r).2 := (acts_offer (P := anyChannel) s r).discreet
  rcases offer_spec server s r with hdeclined | ⟨s', haccepted, haccepts⟩
  · rw [hdeclined]
    exact Nat.le_succ _
  · rw [haccepted] at hdiscreet ⊢
    exact queuedRequests_le [r.token] hdiscreet haccepts.tally

/-! ## The limit -/

/-- When the roster cannot be retrieved, whoever waits is told so, one after the other, and then
nobody waits. -/
theorem rosterFailed_eq (hpending : s.list.roster = .pending) (e : Error) :
    (s.rosterFailed e).list.roster = .failed e ∧ (s.rosterFailed e).list.queuedTokens = [] ∧
      (s.rosterFailed e).effects =
        s.effects ++ s.list.queuedTokens.map fun token => .report (.failed token e) := by
  unfold rosterFailed
  rw [if_pos hpending]
  refine ⟨rfl, ?_, rfl⟩
  refine List.eq_nil_iff_forall_not_mem.mpr fun token htoken => ?_
  obtain ⟨t, c, hc, hwaits⟩ := ContactList.mem_queuedTokens.mp htoken
  simp only [fail, SortedMap.get?_mapValues] at hc
  obtain ⟨_, -, rfl⟩ := Option.map_eq_some_iff.mp hc
  cases hwaits

/-- What can become of the roster in an operation. -/
theorem roster_perform (server : ContactServer σ) (s : ContactScene σ)
    (op : ContactOperation (SortedSet Handle)) :
    (s.perform server op).2.list.roster = s.list.roster ∨
      (s.perform server op).2.list.roster = .received ∨
        ∃ e, (s.perform server op).2.list.roster = .failed e ∧
          (s.perform server op).2.list.queuedRequests = 0 := by
  by_cases hpending : s.list.roster = .pending
  · by_cases hreceived : op = .received
    · subst hreceived
      have hload : (s.perform server .received).2 = s.loadRoster server := if_pos hpending
      rw [hload]
      exact .inr (.inl (congrArg Prod.snd (settings_loadRoster server s)))
    · by_cases hfailed : ∃ e, op = .failed e
      · obtain ⟨e, rfl⟩ := hfailed
        obtain ⟨hroster, hnobody, -⟩ := rosterFailed_eq hpending e
        refine .inr (.inr ⟨e, hroster, ?_⟩)
        rw [ContactList.queuedRequests_eq]
        exact List.length_eq_zero_iff.mpr hnobody
      · exact .inl (congrArg Prod.snd
          (settings_perform server s hreceived fun e he => hfailed ⟨e, he⟩))
  · exact .inl (congrArg Prod.snd (settings_perform_of_arrived server s hpending op))

theorem bounded_perform (op : ContactOperation (SortedSet Handle)) (h : s.list.Bounded limit) :
    (s.perform server op).2.list.Bounded limit := by
  have hfewer := queuedRequests_perform server s op
  have htasks : Tasks server s (s.perform server op).2 := tasks_perform s op
  have hfixed := (Prod.mk.inj htasks.fixtures).2.trans h.configured
  rcases roster_perform server s op with hsame | hreceived | ⟨e, -, hnone⟩
  · refine ⟨hfixed, fun hpending => ?_, fun e hfailed => ?_, fun hgone => ?_⟩
    · exact Nat.le_trans hfewer (h.pending (hsame.symm.trans hpending))
    · exact Nat.le_zero.mp (h.failed e (hsame.symm.trans hfailed) ▸ hfewer)
    · exact Nat.le_zero.mp (h.disconnected (hsame.symm.trans hgone) ▸ hfewer)
  · exact .of_received hfixed hreceived
  · exact .of_empty hfixed hnone

/-- A request joins a queue only if there is room for it. -/
theorem bounded_offer (r : ChannelRequest) (h : s.list.Bounded limit) :
    (s.offer server r).2.list.Bounded limit := by
  cases hservable : s.list.checkServable with
  | error refusal => rwa [offer_of_unservable hservable]
  | ok =>
    have hmore := queuedRequests_offer server s r
    have hfixed := (Prod.mk.inj (fixtures_offer server s r)).2.trans h.configured
    have hsame : (s.offer server r).2.list.roster = s.list.roster :=
      congrArg Prod.snd (settings_offer server s r)
    rcases ContactList.serves_of_checkServable hservable with hreceived | ⟨hpending, hroom⟩
    · exact .of_received hfixed (hsame.trans hreceived)
    · have hroster := hsame.trans hpending
      rw [h.configured] at hroom
      refine ⟨hfixed, fun _ => ?_, fun e hfailed => ?_, fun hgone => ?_⟩
      · omega
      · cases hroster.symm.trans hfailed
      · cases hroster.symm.trans hgone

theorem bounded_disconnect (h : s.list.Bounded limit) : s.disconnect.list.Bounded limit :=
  .of_empty ((Prod.mk.inj (fixtures_disconnect s)).2.trans h.configured)
    (ended_disconnect s).queuedRequests

/-- Nobody waits for channels that were just opened. -/
theorem bounded_openLists (server : ContactServer σ) (hlimit : s.list.queueLimit = limit)
    (hnone : s.list.queuedRequests = 0) : s.openLists.list.Bounded limit := by
  have hacts : Acts server anyChannel s s.openLists := acts_openLists s
  have htasks : Tasks server s s.openLists := tasks_openLists s
  have hfewer := queuedRequests_le [] hacts.discreet (keepsTokens_openLists s).tally
  exact .of_empty ((Prod.mk.inj htasks.fixtures).2.trans hlimit) (by simpa [hnone] using hfewer)

/-! ## The roster that was given up -/

/-- What comes of a request once the roster is given up: it fails like all others did. -/
theorem offer_of_failed {e : Error} {r : ChannelRequest} (hfailed : s.list.roster = .failed e)
    (hr : s.list.Considers server r) : s.offer server r = (.accepted, s.fail [r.token] e) := by
  obtain ⟨_, rfl, heq⟩ := (heedsRoster_of_considers hr).failed e hfailed
  exact heq

/-- While the roster is on its way and nobody else may wait, a request fails and joins no queue. -/
theorem offer_of_full {r : ChannelRequest} (hpending : s.list.roster = .pending)
    (hfull : s.list.queueLimit ≤ s.list.queuedRequests) (hr : s.list.Considers server r) :
    ∃ e, e.kind = .notAvailable ∧ s.offer server r = (.accepted, s.fail [r.token] e) :=
  (heedsRoster_of_considers hr).full hpending hfull

end ContactScene

end Telepathy

import Telepathy.Proofs.ContactList.Ending
import Telepathy.Proofs.ContactList.Queue

set_option autoImplicit false

/-!
# What a contact list does with a request

A contact list declines a request without a trace or accepts it. If it accepts, the request's token
is from then on accounted for once: it waits on a channel, or it was reported on in the course of
the offer.
-/

namespace Telepathy.ContactScene

variable {σ : Type} {s s₁ s₂ : ContactScene σ}

/-- What becomes of a contact list that accepts a request: the request waits or is reported on, and
it is satisfied by a channel that existed before only if it did not ask for a new one. -/
structure AcceptsToken (s : ContactScene σ) (r : ChannelRequest) (s' : ContactScene σ) :
    Prop where
  tally : ∀ token, s'.tokenTally token = s.tokenTally token + [r.token].count token
  reused : ∀ token ∈ reusedTokens s'.effects,
    token ∈ reusedTokens s.effects ∨ token = r.token ∧ r.method ≠ .create

variable {r : ChannelRequest}

theorem KeepsTokens.accepts (h : s.KeepsTokens s₁) (h' : s₁.AcceptsToken r s₂) :
    s.AcceptsToken r s₂ :=
  ⟨fun token => by rw [h'.tally, h.tally], fun token ht => by
    have := h'.reused token ht
    rwa [h.reused] at this⟩

theorem acceptsToken_fail (s : ContactScene σ) (r : ChannelRequest) (e : Error) :
    s.AcceptsToken r (s.fail [r.token] e) where
  tally token := by
    simp only [tokenTally, fail, reportedTokens_append, reportedTokens_failed, List.count_append]
    omega
  reused token ht := by
    rw [fail, reusedTokens_append, reused_failed, List.append_nil] at ht
    exact .inl ht

/-- A request that waits on a channel waits there once more. -/
theorem acceptsToken_queue {t : ContactTarget} {c : ContactChannel}
    (h : s.list.channels.get? t = some c) (r : ChannelRequest) :
    s.AcceptsToken r { s with list := s.list.put t (c.queue r.token) } where
  tally token := by
    have hbefore := (ContactList.queuedTokens_perm h).count_eq token
    have hafter := (ContactList.queuedTokens_put s.list t (c.queue r.token)).count_eq token
    simp only [tokenTally, ContactChannel.queue, List.count_append] at hbefore hafter ⊢
    omega
  reused token ht := .inl ht

/-- A channel satisfies a request now, unless it asked for a new one, or later. -/
theorem acceptsToken_satisfy {t : ContactTarget} {c : ContactChannel}
    (h : s.list.channels.get? t = some c) (hnew : c.announced = true → r.method ≠ .create) :
    s.AcceptsToken r (s.satisfy t r.token) := by
  unfold satisfy
  simp only [h]
  by_cases hannounced : c.announced = true
  · rw [if_pos hannounced]
    refine ⟨fun token => ?_, fun token ht => ?_⟩
    · have hreport : reportedTokens [.report (.alreadySatisfied r.token (c.details t))] =
          [r.token] := rfl
      simp only [tokenTally, emit, reportedTokens_append, hreport, List.count_append]
      omega
    · rw [emit, reusedTokens_append] at ht
      obtain ht | ht := List.mem_append.mp ht
      · exact .inl ht
      · exact .inr ⟨List.mem_singleton.mp ht, hnew hannounced⟩
  · rw [if_neg hannounced]
    exact acceptsToken_queue h r

/-- A channel that was just made sure of exists, and clients know of it only if it did before. -/
theorem get?_of_openChannel {t : ContactTarget} {requested : Bool}
    (h : s.openChannel t requested = .ok s₁) :
    ∃ c, s₁.list.channels.get? t = some c ∧
      (c.announced = true → s.list.channels.get? t = some c) := by
  unfold openChannel at h
  by_cases hc : s.list.channels.contains t = true
  · rw [if_pos hc] at h
    cases h
    obtain ⟨c, hc⟩ := Option.isSome_iff_exists.mp hc
    exact ⟨c, hc, fun _ => hc⟩
  · rw [if_neg hc] at h
    cases he : s.tables.ensure t.entity t.name with
    | error e =>
      simp only [he] at h
      cases h
    | ok opened =>
      simp only [he] at h
      cases h
      exact ⟨_, SortedMap.get?_insert_self _ _ _, fun hfalse => absurd hfalse Bool.false_ne_true⟩

theorem acceptsToken_announceFor {t : ContactTarget} {c : ContactChannel}
    (h : s.list.channels.get? t = some c) (r : ChannelRequest) :
    s.AcceptsToken r (s.announceFor t r.token) := by
  unfold announceFor
  simp only [h]
  refine ⟨fun token => ?_, fun token ht => .inl ?_⟩
  · have hbefore := (ContactList.queuedTokens_perm h).count_eq token
    have hafter := (ContactList.queuedTokens_put s.list t c.announce).count_eq token
    have hreport : reportedTokens
        [.report (.newChannels [(c.details t, c.queued ++ [r.token])])] =
        c.queued ++ [r.token] := by
      simp [reportedTokens, Effect.tokens, Report.tokens]
    simp only [tokenTally, emit, reportedTokens_append, hreport, List.count_append,
      ContactChannel.announce, List.count_nil] at hbefore hafter ⊢
    omega
  · have hnone :
        reusedTokens [.report (.newChannels [(c.details t, c.queued ++ [r.token])])] = [] := rfl
    rwa [emit, reusedTokens_append, hnone, List.append_nil] at ht

/-! ## Lists and groups -/

/-- What is known of a list that is served: the protocol has it, and no new one was asked for. -/
theorem of_checkListRequest {l : ContactList} {k : ListKind} (h : checkListRequest l r = .ok k) :
    k.isSupported l.capabilities = true ∧ r.method ≠ .create := by
  unfold checkListRequest at h
  simp only at h
  cases hname : ListKind.ofName? (r.targetId.getD "") with
  | none =>
    simp only [hname] at h
    cases h
  | some kind =>
    simp only [hname] at h
    by_cases hsupported : (!kind.isSupported l.capabilities) = true
    · rw [if_pos hsupported] at h
      cases h
    · rw [if_neg hsupported] at h
      by_cases hcreate : r.method = .create
      · rw [if_pos hcreate] at h
        cases h
      · rw [if_neg hcreate] at h
        obtain ⟨_, -, heq⟩ := Except.bind_eq_ok.mp h
        cases heq
        exact ⟨by simpa using hsupported, hcreate⟩

theorem acceptsToken_requestList (s : ContactScene σ) (r : ChannelRequest) :
    s.AcceptsToken r (conclude r.token (s.requestList r)) := by
  unfold requestList
  cases hcheck : checkListRequest s.list r with
  | error refusal => exact acceptsToken_fail s r _
  | ok k =>
    simp only
    cases hopen : s.openChannel (.list k) false with
    | error e => exact acceptsToken_fail s r _
    | ok s₁ =>
      obtain ⟨c, hc, -⟩ := get?_of_openChannel hopen
      exact (keepsTokens_openChannel hopen).accepts
        (acceptsToken_satisfy hc fun _ => (of_checkListRequest hcheck).2)

theorem acceptsToken_createGroupFor (server : ContactServer σ) (s : ContactScene σ)
    (r : ChannelRequest) (name : String) :
    s.AcceptsToken r (conclude r.token (s.createGroupFor server name r.token)) := by
  unfold createGroupFor
  by_cases hedit : (!s.list.capabilities.groups.isEditable) = true
  · rw [if_pos hedit]
    exact acceptsToken_fail s r _
  · rw [if_neg hedit]
    have hcall := keepsTokens_call server s (.createGroups [name])
    generalize s.call server (.createGroups [name]) = called at hcall
    obtain ⟨failure, s₁⟩ := called
    cases failure with
    | some e => exact hcall.accepts (acceptsToken_fail s₁ r _)
    | none =>
      simp only
      cases hopen : s₁.openChannel (.group name) true with
      | error e => exact hcall.accepts (acceptsToken_fail s₁ r _)
      | ok s₂ =>
        obtain ⟨c, hc, -⟩ := get?_of_openChannel hopen
        exact (hcall.trans (keepsTokens_openChannel hopen)).accepts (acceptsToken_announceFor hc r)

theorem acceptsToken_requestGroup (server : ContactServer σ) (s : ContactScene σ)
    (r : ChannelRequest) :
    s.AcceptsToken r (conclude r.token (s.requestGroup server r)) := by
  unfold requestGroup
  cases checkGroupRequest server s.list r with
  | error refusal => exact acceptsToken_fail s r _
  | ok name =>
    simp only
    cases hgroup : s.list.group? name with
    | some c =>
      simp only [Option.isSome_some, if_true]
      by_cases hcreate : r.method = .create
      · rw [if_pos hcreate]
        exact acceptsToken_fail s r _
      · rw [if_neg hcreate]
        exact acceptsToken_satisfy hgroup fun _ => hcreate
    | none =>
      simp only [Option.isSome_none, Bool.false_eq_true, if_false]
      by_cases hreceived : s.list.roster = .received
      · rw [if_pos hreceived]
        exact acceptsToken_createGroupFor server s r name
      · rw [if_neg hreceived]
        cases hopen : s.openChannel (.group name) true with
        | error e => exact acceptsToken_fail s r _
        | ok s₁ =>
          obtain ⟨c, hc, hknown⟩ := get?_of_openChannel hopen
          refine (keepsTokens_openChannel hopen).accepts
            (acceptsToken_satisfy hc fun hannounced => ?_)
          have := hknown hannounced
          rw [show s.list.channels.get? (.group name) = none from hgroup] at this
          cases this

/-- A contact list that declines a request leaves everything as it is; one that accepts it accounts
for its token. -/
theorem offer_spec (server : ContactServer σ) (s : ContactScene σ) (r : ChannelRequest) :
    s.offer server r = (.declined, s) ∨
      ∃ s', s.offer server r = (.accepted, s') ∧ s.AcceptsToken r s' := by
  unfold offer
  by_cases htype : r.channelType ≠ Property.contactListType
  · rw [if_pos htype]
    exact .inl rfl
  · rw [if_neg htype]
    cases r.entity with
    | list => exact .inr ⟨_, rfl, acceptsToken_requestList s r⟩
    | group => exact .inr ⟨_, rfl, acceptsToken_requestGroup server s r⟩
    | none | contact | room => exact .inl rfl

/-- A contact list that is disconnected has no queues, and reports on nobody. -/
theorem disconnect_spec (s : ContactScene σ) :
    s.disconnect.list.queuedTokens = [] ∧
      reportedTokens s.disconnect.effects = reportedTokens s.effects := by
  obtain ⟨hlist, -, heffects⟩ := disconnect_eq s
  refine ⟨?_, ?_⟩
  · rw [hlist]
    rfl
  · rw [heffects, reportedTokens_append, reportedTokens_signals, List.append_nil]

end Telepathy.ContactScene

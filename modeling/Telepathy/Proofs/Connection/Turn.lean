import Telepathy.Connection.Serving
import Telepathy.Connection.Lifecycle
import Telepathy.Proofs.Request.Report

set_option autoImplicit false

/-!
# What managers can do to a connection

Managers act through effects, and the effects leave most of a connection alone. They put nothing in
flight and park nothing; what they take out of flight they answer. So of every call the account
stays the same: as often as it waits or was answered before, it waits or was answered afterwards.
`Served` says this of two connections, and holds across every stage in which managers act.
-/

namespace Telepathy.Connection

variable {σ ρ : Type} {c c₁ c₂ : Connection σ ρ}

/-- How often a call is accounted for: it waits for a manager, for a lookup or for the end of the
shutdown, or it was answered. -/
def tally (c : Connection σ ρ) (call : CallId) : Nat :=
  c.ledger.callsInFlight.count call + c.ledger.callsParked.count call +
    c.disconnectCalls.count call + (answeredCalls c.log).count call

/-- No request is lost: there are new events, among them an answer to every request that is no
longer in flight. -/
def KeepsRequests (c c' : Connection σ ρ) : Prop :=
  ∃ events, c'.log = c.log ++ events ∧
    ∀ token p, c.ledger.inFlight.get? token = some p →
      c'.ledger.inFlight.get? token = some p ∨ RequestAnswered events p.call

theorem KeepsRequests.of_ledger {events : List Event} (hlog : c₁.log = c.log ++ events)
    (h : c₁.ledger.inFlight = c.ledger.inFlight) : c.KeepsRequests c₁ :=
  ⟨events, hlog, fun _ _ hp => .inl (h ▸ hp)⟩

theorem KeepsRequests.refl (c : Connection σ ρ) : c.KeepsRequests c :=
  .of_ledger (List.append_nil _).symm rfl

theorem KeepsRequests.trans (h : c.KeepsRequests c₁) (h' : c₁.KeepsRequests c₂) :
    c.KeepsRequests c₂ := by
  obtain ⟨events, hlog, hanswered⟩ := h
  obtain ⟨events', hlog', hanswered'⟩ := h'
  refine ⟨events ++ events', by rw [hlog', hlog, List.append_assoc], fun token p hp => ?_⟩
  obtain hp | ⟨a, ha, hne⟩ := hanswered token p hp
  · obtain hp | ⟨a, ha, hne⟩ := hanswered' token p hp
    · exact .inl hp
    · exact .inr ⟨a, List.mem_append_right _ ha, hne⟩
  · exact .inr ⟨a, List.mem_append_left _ ha, hne⟩

/-- What managers leave as it is. -/
structure Served (c c' : Connection σ ρ) : Prop where
  frame : c' =
    { c with
      tables := c'.tables, ledger := c'.ledger, managers := c'.managers, log := c'.log }
  seats : c'.managers.length = c.managers.length
  ledger : ∃ tokens, c'.ledger = c.ledger.without tokens
  tally : ∀ call, c'.tally call = c.tally call
  requests : c.KeepsRequests c'

namespace Served

theorem refl (c : Connection σ ρ) : c.Served c where
  frame := rfl
  seats := rfl
  ledger := ⟨[], (RequestLedger.without_nil _).symm⟩
  tally _ := rfl
  requests := .refl c

theorem trans (h : c.Served c₁) (h' : c₁.Served c₂) : c.Served c₂ where
  frame := by rw [h'.frame, h.frame]
  seats := h'.seats.trans h.seats
  ledger := by
    obtain ⟨tokens, htokens⟩ := h.ledger
    obtain ⟨tokens', htokens'⟩ := h'.ledger
    exact ⟨tokens ++ tokens', by rw [htokens', htokens, RequestLedger.without_without]⟩
  tally call := (h'.tally call).trans (h.tally call)
  requests := h.requests.trans h'.requests

theorem status (h : c.Served c₁) : c₁.status = c.status := by rw [h.frame]

theorem shutDown (h : c.Served c₁) : c₁.shutDown = c.shutDown := by rw [h.frame]

theorem disconnectCalls (h : c.Served c₁) : c₁.disconnectCalls = c.disconnectCalls := by
  rw [h.frame]

theorem advances (h : c.Served c₁) : c.ledger.Advances c₁.ledger := by
  obtain ⟨tokens, htokens⟩ := h.ledger
  rw [htokens]
  exact c.ledger.advances_without tokens

end Served

/-! ## Events -/

theorem tally_record (c : Connection σ ρ) (events : List Event) (call : CallId) :
    (c.record events).tally call = c.tally call + (answeredCalls events).count call := by
  simp only [tally, record, answeredCalls_append, List.count_append]
  omega

/-- Events that answer nobody do no harm. -/
theorem served_record (c : Connection σ ρ) {events : List Event} (h : answeredCalls events = []) :
    c.Served (c.record events) where
  frame := rfl
  seats := rfl
  ledger := ⟨[], (RequestLedger.without_nil _).symm⟩
  tally call := by rw [tally_record, h, List.count_nil, Nat.add_zero]
  requests := .of_ledger rfl rfl

/-! ## Effects -/

/-- Requests that are taken out of flight and answered keep the accounts. -/
theorem served_claimed {tokens : List RequestToken} {ps : List PendingRequest}
    (hnodup : tokens.Nodup) (hps : tokens.map c.ledger.inFlight.get? = ps.map some)
    (tables : HandleTables) {events : List Event}
    (hanswered : answeredCalls events = ps.map (·.call))
    (hreplies : ∀ call a, .answered call a ∈ events → a ≠ .returned .done) :
    c.Served ({ c with ledger := c.ledger.without tokens, tables }.record events) := by
  refine ⟨rfl, rfl, ⟨tokens, rfl⟩, fun call => ?_, events, rfl, fun token p hp => ?_⟩
  · have hperm := ((RequestLedger.inFlight_perm_claimed hnodup hps).map (·.call)).count_eq call
    have hparked : (c.ledger.without tokens).callsParked = c.ledger.callsParked := rfl
    rw [List.map_append, List.count_append] at hperm
    rw [tally_record, hanswered]
    simp only [tally, hparked, RequestLedger.callsInFlight]
    omega
  · by_cases hmem : token ∈ tokens
    · obtain ⟨q, hq, heq⟩ := RequestLedger.mem_of_claimed hps hmem
      rw [hp, Option.some.injEq] at heq
      subst heq
      have hcall : p.call ∈ answeredCalls events := hanswered ▸ List.mem_map_of_mem hq
      obtain ⟨a, ha⟩ := mem_answeredCalls.mp hcall
      exact .inr ⟨a, ha, hreplies _ a ha⟩
    · refine .inl ?_
      rw [record, RequestLedger.get?_without, if_neg hmem]
      exact hp

/-- A report is carried out as the ledger settles it. -/
theorem settle_cases {r : Report} (h : c.settle r = .ok c₁) :
    ∃ s, c.ledger.settle c.names.path r = .ok s ∧
      c₁ = ({ c with ledger := s.ledger, tables := c.tables.releaseAll s.released }.record
        s.events) := by
  unfold settle at h
  split at h
  · cases h
  case h_2 s hs => exact ⟨s, hs, (Except.ok.inj h).symm⟩

/-- A report answers exactly the requests that it takes out of flight. -/
theorem served_settle {r : Report} (h : c.settle r = .ok c₁) : c.Served c₁ := by
  obtain ⟨s, hs, rfl⟩ := settle_cases h
  obtain ⟨ps, hnodup, hps, hledger, hanswered, -⟩ := RequestLedger.settle_spec hs
  rw [hledger]
  refine served_claimed hnodup hps _ hanswered fun call a ha => ?_
  obtain ⟨_, _, he, -⟩ | ⟨_, _, he, hne⟩ := RequestLedger.mem_settle_events hs ha
  · cases he
  · cases he
    exact hne

theorem served_perform {seat : Nat} {e : Effect} (h : c.perform seat e = .ok c₁) :
    c.Served c₁ := by
  cases e with
  | report r => exact served_settle (Except.mapError_eq_ok.mp h)
  | signal path s =>
    cases h
    exact served_record c rfl
  | called call =>
    cases h
    exact served_record c rfl

theorem served_takeTurn {seat : Nat} {t : Turn σ ρ} (h : c.takeTurn seat t = .ok c₁) :
    c.Served c₁ := by
  have hplaced : c.Served
      { c with managers := c.managers.set seat t.manager, tables := t.tables } :=
    ⟨rfl, List.length_set, ⟨[], (RequestLedger.without_nil _).symm⟩, fun _ => rfl,
      .of_ledger (List.append_nil _).symm rfl⟩
  exact hplaced.trans (List.foldlM_rel Served.refl Served.trans served_perform h)

/-! ## Stages in which managers act -/

/-- A request that nobody accepted is answered, unless a manager reported on it all the same. -/
theorem served_refuse (c : Connection σ ρ) (r : ChannelRequest) : c.Served (c.refuse r) := by
  unfold refuse
  cases hclaim : c.ledger.claim r.token with
  | error fault => exact .refl c
  | ok claimed =>
    obtain ⟨p, l⟩ := claimed
    obtain ⟨hp, rfl⟩ := RequestLedger.claim_eq_ok_iff.mp hclaim
    have hps : [r.token].map c.ledger.inFlight.get? = [p].map some := by simp [hp]
    exact served_claimed (by simp) hps _ rfl fun call a ha => by
      simp at ha
      simp [ha.2]

theorem served_offerAt {r : ChannelRequest} {seat : Nat} {o : Offer}
    (h : c.offerAt r seat = .ok (o, c₁)) : c.Served c₁ := by
  unfold offerAt at h
  cases hm : c.managers[seat]? with
  | none =>
    simp only [hm] at h
    cases h
    exact .refl c
  | some m =>
    simp only [hm] at h
    obtain ⟨c', hturn, heq⟩ := Except.map_eq_ok.mp h
    cases heq
    exact (served_record c rfl).trans (served_takeTurn hturn)

theorem served_offerTo {r : ChannelRequest} {seats : List Nat} {o : Offer}
    (h : c.offerTo r seats = .ok (o, c₁)) : c.Served c₁ := by
  induction seats generalizing c with
  | nil =>
    cases h
    exact .refl _
  | cons seat seats ih =>
    obtain ⟨⟨o', c'⟩, hoffer, h⟩ := Except.bind_eq_ok.mp h
    cases o' with
    | accepted =>
      cases h
      exact served_offerAt hoffer
    | declined => exact (served_offerAt hoffer).trans (ih h)

theorem served_notifyAt {status : Status} {seat : Nat} (h : c.notifyAt status seat = .ok c₁) :
    c.Served c₁ := by
  unfold notifyAt at h
  cases hm : c.managers[seat]? with
  | none =>
    simp only [hm] at h
    cases h
    exact .refl c
  | some m =>
    simp only [hm] at h
    exact (served_record c rfl).trans (served_takeTurn h)

theorem served_notifyAll {status : Status} {seats : List Nat}
    (h : seats.foldlM (notifyAt status) c = .ok c₁) : c.Served c₁ :=
  List.foldlM_rel Served.refl Served.trans served_notifyAt h

end Telepathy.Connection

import Telepathy.Proofs.Connection.Transitions
import Telepathy.Proofs.Connection.Turn

set_option autoImplicit false

/-!
# The accounts of a connection

A call that was delivered waits in one of three places, in flight, parked, or for the end of the
shutdown, until it is answered. Whatever happens to a connection adds the calls that are delivered
to its `tally` of calls and changes nothing else there. This rests on an invariant, `Orderly`:
numbers are issued before they are pending, a connection that is gone has no requests, and one whose
shutdown is over has no calls waiting.
-/

namespace Telepathy.Connection

variable {σ ρ : Type} {c c₁ c₂ : Connection σ ρ}

/-! ## The invariant -/

/-- What holds of a connection between operations. -/
structure Orderly (c : Connection σ ρ) : Prop where
  issued : c.ledger.Issued
  gone : c.status = .disconnected → c.ledger.inFlight = .empty ∧ c.ledger.parked = .empty
  ended : c.shutDown = true → c.status = .disconnected ∧ c.disconnectCalls = []

/-- What an operation that delivers some calls does to the accounts. -/
structure Receives (c : Connection σ ρ) (calls : List CallId) (c' : Connection σ ρ) : Prop where
  orderly : c'.Orderly
  tally : ∀ call, c'.tally call = c.tally call + calls.count call
  advances : c.ledger.Advances c'.ledger
  shutDown : c.shutDown = true → c'.shutDown = true
  requests : c.KeepsRequests c'

theorem Receives.trans {calls calls' : List CallId} (h : c.Receives calls c₁)
    (h' : c₁.Receives calls' c₂) : c.Receives (calls ++ calls') c₂ where
  orderly := h'.orderly
  tally call := by
    have := h.tally call
    have := h'.tally call
    rw [List.count_append]
    omega
  advances := h.advances.trans h'.advances
  shutDown hs := h'.shutDown (h.shutDown hs)
  requests := h.requests.trans h'.requests

/-- A log to which nothing was added. -/
theorem unlogged {log : List Event} :
    ∃ events, log = log ++ events ∧ answeredCalls events = [] :=
  ⟨[], (List.append_nil _).symm, rfl⟩

namespace Orderly

theorem refl (hc : c.Orderly) : c.Receives [] c :=
  ⟨hc, fun _ => rfl, .refl _, id, .refl _⟩

/-- What concerns no call changes no account. -/
theorem quiet (hc : c.Orderly) (hledger : c₁.ledger = c.ledger) (hstatus : c₁.status = c.status)
    (hcalls : c₁.disconnectCalls = c.disconnectCalls) (hshut : c₁.shutDown = c.shutDown)
    (hlog : ∃ events, c₁.log = c.log ++ events ∧ answeredCalls events = []) :
    c.Receives [] c₁ where
  orderly := by
    refine ⟨hledger ▸ hc.issued, ?_, ?_⟩
    · rw [hledger, hstatus]
      exact hc.gone
    · rw [hstatus, hcalls, hshut]
      exact hc.ended
  tally call := by
    obtain ⟨events, hlog, hnobody⟩ := hlog
    simp [Connection.tally, hledger, hcalls, hlog, answeredCalls_append, hnobody]
  advances := hledger ▸ .refl _
  shutDown := by simp [hshut]
  requests := by
    obtain ⟨events, hlog, -⟩ := hlog
    exact .of_ledger hlog (congrArg _ hledger)

theorem record (hc : c.Orderly) {events : List Event} (h : answeredCalls events = []) :
    c.Receives [] (c.record events) :=
  hc.quiet rfl rfl rfl rfl ⟨_, rfl, h⟩

/-- An answer settles the account of its call. -/
theorem answer (hc : c.Orderly) (call : CallId) (a : CallAnswer) :
    c.Receives [call] (c.answer call a) where
  orderly := ⟨hc.issued, hc.gone, hc.ended⟩
  tally call' := tally_record c _ call'
  advances := .refl _
  shutDown := id
  requests := .of_ledger rfl rfl

theorem served (hc : c.Orderly) (h : c.Served c₁) : c.Receives [] c₁ where
  orderly := by
    refine ⟨hc.issued.of_advances h.advances, fun hs => ?_, fun hs => ?_⟩
    · obtain ⟨hflight, hparked⟩ := hc.gone (h.status ▸ hs)
      obtain ⟨tokens, htokens⟩ := h.ledger
      rw [htokens]
      refine ⟨SortedMap.eq_empty_iff.mpr fun token => ?_, hparked⟩
      rw [RequestLedger.get?_without, hflight]
      simp
    · rw [h.status, h.disconnectCalls]
      exact hc.ended (h.shutDown ▸ hs)
  tally := h.tally
  advances := h.advances
  shutDown hs := h.shutDown.trans hs
  requests := h.requests

theorem not_over (hc : c.Orderly) (h : c.status ≠ .disconnected) : c.shutDown = false :=
  Bool.eq_false_iff.mpr fun hs => h (hc.ended hs).1

end Orderly

/-! ## The end of a connection -/

/-- Leaving the bus concerns no call. -/
theorem withdraw_frame (c : Connection σ ρ) :
    ∃ events registered bus, answeredCalls events = [] ∧
      c.withdraw = { c with registered, bus, log := c.log ++ events } := by
  unfold withdraw
  by_cases h : c.registered = true
  · rw [if_pos h]
    exact ⟨[.objectWithdrawn c.names.path, .nameReleased c.names.busName], _, _, rfl, rfl⟩
  · rw [if_neg h]
    refine ⟨[], c.registered, c.bus, rfl, ?_⟩
    rw [List.append_nil]

/-- The end of the shutdown answers all who asked to disconnect, and touches no request. -/
theorem finishShutdown_frame (hstatus : c.status = .disconnected) (hshut : c.shutDown = false) :
    ∃ events registered bus tables, answeredCalls events = c.disconnectCalls ∧
      c.finishShutdown =
        { c with
          shutDown := true, disconnectCalls := [], registered, bus, tables
          log := c.log ++ events } := by
  obtain ⟨events, registered, bus, hevents, hwithdraw⟩ := withdraw_frame { c with shutDown := true }
  have hanswered := answeredCalls_map id (fun _ => .returned .done) c.disconnectCalls
  rw [List.map_id] at hanswered
  have hfinish : c.finishShutdown =
      ({ c with shutDown := true }.withdraw.answerDisconnects).collect.2 :=
    if_pos ⟨hstatus, hshut⟩
  rw [hfinish, hwithdraw]
  refine ⟨events ++ c.disconnectCalls.map fun call => .answered call (.returned .done),
    registered, bus, c.tables.collect.2, ?_, ?_⟩
  · rw [answeredCalls_append, hevents]
    exact hanswered
  · simp only [answerDisconnects, collect, Connection.record, List.append_assoc]

theorem Orderly.finishShutdown (hc : c.Orderly) : c.Receives [] c.finishShutdown := by
  by_cases h : c.status = .disconnected ∧ c.shutDown = false
  · obtain ⟨events, registered, bus, tables, hanswered, heq⟩ := finishShutdown_frame h.1 h.2
    rw [heq]
    refine ⟨⟨hc.issued, hc.gone, fun _ => ⟨h.1, rfl⟩⟩, fun call => ?_, .refl _, fun _ => rfl,
      .of_ledger rfl rfl⟩
    simp only [Connection.tally, answeredCalls_append, hanswered, List.count_append,
      List.count_nil]
    omega
  · rw [Connection.finishShutdown, if_neg h]
    exact hc.refl

/-- When a connection becomes disconnected, every request that waits is answered. -/
theorem receives_failOutstanding (hissued : c.ledger.Issued) (hshut : c.shutDown = false) :
    c.Receives [] c.failOutstanding := by
  have hanswered := answeredCalls_map id (fun _ => .failed leaving) c.ledger.calls
  rw [List.map_id] at hanswered
  have hclear := RequestLedger.advances_clear c.ledger
  refine ⟨⟨hissued.of_advances hclear, fun _ => ⟨rfl, rfl⟩, fun hs => ?_⟩, fun call => ?_, hclear,
    fun hs => hs, _, rfl, fun token p hp => .inr ?_⟩
  · exact absurd (hshut ▸ hs) Bool.false_ne_true
  · have hlog : answeredCalls c.failOutstanding.log = answeredCalls c.log ++ c.ledger.calls := by
      rw [failOutstanding, Connection.record, answeredCalls_append]
      exact congrArg _ hanswered
    have hflight : c.failOutstanding.ledger.callsInFlight = [] := rfl
    have hparked : c.failOutstanding.ledger.callsParked = [] := rfl
    have hcalls : c.failOutstanding.disconnectCalls = c.disconnectCalls := rfl
    simp only [Connection.tally, hlog, hflight, hparked, hcalls, RequestLedger.calls_eq,
      List.count_append, List.count_nil]
    omega
  · have hcall : p.call ∈ c.ledger.calls := by
      rw [RequestLedger.calls_eq, List.mem_append]
      exact .inr (List.mem_map_of_mem (SortedMap.mem_values.mpr ⟨token, hp⟩))
    exact ⟨.failed leaving, List.mem_map_of_mem hcall, CallAnswer.noConfusion⟩

theorem Orderly.forgetInterests (hc : c.Orderly) : c.Receives [] c.forgetInterests := by
  refine hc.quiet rfl rfl rfl rfl ?_
  have hunwatched : answeredCalls (c.interests.clear.2.map .unwatched) = [] :=
    answeredCalls_eq_nil fun e he => by
      obtain ⟨client, -, rfl⟩ := List.mem_map.mp he
      rfl
  exact ⟨_, rfl, hunwatched⟩

theorem Orderly.shutDownBackend (hc : c.Orderly) : c.Receives [] c.shutDownBackend := by
  have hhook : c.Receives [] (c.record [.hook .shutDown]) := hc.record rfl
  unfold Connection.shutDownBackend
  by_cases hdefers : c.backend.defersShutdown = true
  · exact (if_pos hdefers).symm ▸ hhook
  · exact (if_neg hdefers).symm ▸ hhook.trans hhook.orderly.finishShutdown

theorem receives_tearDown (hissued : c.ledger.Issued) (hshut : c.shutDown = false) :
    c.Receives [] c.tearDown := by
  have hfail := receives_failOutstanding hissued hshut
  have hself : c.failOutstanding.Receives [] c.failOutstanding.forgetSelf :=
    hfail.orderly.quiet rfl rfl rfl rfl unlogged
  have hinterests := hself.orderly.forgetInterests
  exact ((hfail.trans hself).trans hinterests).trans hinterests.orderly.shutDownBackend

/-! ## Changes of status -/

/-- What a connection is when its managers have been told of a new status. -/
theorem enter_eq_ok {status : Status} {reason : StatusReason}
    (h : c.enter status reason = .ok c₁) :
    ∃ events told, answeredCalls events = [] ∧
      Served { c with status, log := c.log ++ events } told ∧
      c₁ = if status = .disconnected then told.tearDown else told := by
  obtain ⟨told, htold, h⟩ := Except.bind_eq_ok.mp h
  cases h
  refine ⟨.signal c.names.path (.statusChanged status reason) ::
    (hookFor c.status status).toList.map .hook, told, ?_, ?_, rfl⟩
  · cases hookFor c.status status <;> rfl
  · have := served_notifyAll htold
    simp only [emit, Connection.record, List.append_assoc] at this
    exact this

theorem status_finishShutdown (c : Connection σ ρ) : c.finishShutdown.status = c.status := by
  by_cases h : c.status = .disconnected ∧ c.shutDown = false
  · obtain ⟨events, registered, bus, tables, -, heq⟩ := finishShutdown_frame h.1 h.2
    rw [heq]
  · rw [finishShutdown, if_neg h]

theorem status_tearDown (c : Connection σ ρ) : c.tearDown.status = c.status := by
  unfold tearDown shutDownBackend
  dsimp only
  split
  · rfl
  · exact status_finishShutdown _

/-- A status that is entered is there afterwards. -/
theorem status_entered {status : Status} {reason : StatusReason}
    (h : c.enter status reason = .ok c₁) : c₁.status = status := by
  obtain ⟨events, told, -, hserved, rfl⟩ := enter_eq_ok h
  split
  · exact (status_tearDown told).trans hserved.status
  · exact hserved.status

theorem Orderly.enter (hc : c.Orderly) (hstatus : c.status ≠ .disconnected) {status : Status}
    {reason : StatusReason} (h : c.enter status reason = .ok c₁) : c.Receives [] c₁ := by
  obtain ⟨events, told, hevents, hserved, rfl⟩ := enter_eq_ok h
  have htally : ∀ call, told.tally call = c.tally call := by
    intro call
    rw [hserved.tally]
    simp [Connection.tally, answeredCalls_append, hevents]
  have hentered : c.KeepsRequests { c with status, log := c.log ++ events } := .of_ledger rfl rfl
  have htold : c.KeepsRequests told := hentered.trans hserved.requests
  have hnot : c.shutDown = false := hc.not_over hstatus
  have hshut : told.shutDown = false := hserved.shutDown.trans hnot
  have hissued : told.ledger.Issued := hc.issued.of_advances hserved.advances
  by_cases hs : status = .disconnected
  · have htorn := receives_tearDown hissued hshut
    rw [if_pos hs]
    refine ⟨htorn.orderly, fun call => (htorn.tally call).trans ?_,
      hserved.advances.trans htorn.advances, fun hover => ?_, ?_⟩
    · rw [htally]
    · exact absurd (hnot ▸ hover) Bool.false_ne_true
    · exact htold.trans htorn.requests
  · rw [if_neg hs]
    refine ⟨⟨hissued, fun hgone => ?_, fun hover => ?_⟩, htally, hserved.advances, fun hover => ?_,
      htold⟩
    · exact absurd (hserved.status.symm.trans hgone) hs
    · exact absurd (hshut ▸ hover) Bool.false_ne_true
    · exact absurd (hnot ▸ hover) Bool.false_ne_true

theorem Orderly.changeStatus (hc : c.Orderly) {status : Status} {reason : StatusReason}
    {outcome : Except TransitionError Unit} (h : c.changeStatus status reason = .ok (outcome, c₁)) :
    c.Receives [] c₁ := by
  obtain rfl | ⟨hroute, henter⟩ | ⟨hnew, -, c', hfirst, hsecond⟩ := changeStatus_cases h
  · exact hc.refl
  · exact hc.enter (Status.ne_disconnected_of_route hroute) henter
  · have h₁ := hc.enter (by rw [hnew]; decide) hfirst
    exact h₁.trans (h₁.orderly.enter (by rw [status_entered hfirst]; decide) hsecond)

theorem Orderly.connect (hc : c.Orderly) {outcome : Except Error Unit}
    (h : c.connect = .ok (outcome, c₁)) : c.Receives [] c₁ := by
  rcases connect_cases h with ⟨-, rfl⟩ | ⟨-, changed, hchange⟩
  · exact hc.refl
  · have hhook : c.Receives [] (c.record [.hook .startConnecting]) := hc.record rfl
    exact hhook.trans (hhook.orderly.changeStatus hchange)

/-- Who asks to disconnect is answered at once or waits for the end of the shutdown. -/
theorem Orderly.disconnect (hc : c.Orderly) {call : CallId} (h : c.disconnect call = .ok c₁) :
    c.Receives [call] c₁ := by
  have hwaits : c.shutDown = false →
      c.Receives [call] { c with disconnectCalls := c.disconnectCalls ++ [call] } := by
    intro hover
    refine ⟨⟨hc.issued, hc.gone, fun hs => ?_⟩, fun call' => ?_, .refl _, id,
      .of_ledger (List.append_nil _).symm rfl⟩
    · exact absurd (hover ▸ hs) Bool.false_ne_true
    · simp only [Connection.tally, List.count_append]
      omega
  rcases disconnect_cases h with ⟨-, rfl⟩ | ⟨hover, -, rfl⟩ | ⟨hover, -, changed, hchange⟩
  · exact hc.answer call _
  · exact hwaits hover
  · exact (hwaits hover).trans ((hwaits hover).orderly.changeStatus hchange)

/-! ## Requests -/

/-- A request that is put in flight waits there. -/
theorem Orderly.track (hc : c.Orderly) (hstatus : c.status ≠ .disconnected) (p : PendingRequest)
    (tables : HandleTables) :
    c.Receives [p.call] { c with ledger := c.ledger.track p, tables } := by
  have hadvances := c.ledger.advances_track p
  refine ⟨⟨hc.issued.of_advances hadvances, fun hgone => absurd hgone hstatus, hc.ended⟩,
    fun call => ?_, hadvances, id, [], (List.append_nil _).symm, fun token q hq => .inl ?_⟩
  · have := (hc.issued.callsInFlight_track p).count_eq call
    have hparked : (c.ledger.track p).callsParked = c.ledger.callsParked := rfl
    simp only [Connection.tally, hparked, List.count_cons, List.count_nil] at this ⊢
    omega
  · have hne : token ≠ c.ledger.nextToken := by
      rintro rfl
      rw [hc.issued.nextToken_fresh] at hq
      cases hq
    exact (SortedMap.get?_insert_ne _ _ hne).trans hq

theorem Orderly.present (hc : c.Orderly) (hstatus : c.status ≠ .disconnected) {call : CallId}
    {r : ValidRequest} {target : Option Handle} (h : c.present call r target = .ok c₁) :
    c.Receives [call] c₁ := by
  obtain ⟨⟨offer, c'⟩, hoffer, h⟩ := Except.bind_eq_ok.mp h
  have htracked := hc.track hstatus ⟨call, r.method, target.map (Reference.mk r.entity)⟩
    (c.tables.retainAll (target.map (Reference.mk r.entity)).toList)
  have hoffered := htracked.trans (htracked.orderly.served (served_offerTo hoffer))
  cases offer with
  | accepted =>
    cases h
    exact hoffered
  | declined =>
    cases h
    exact hoffered.trans (hoffered.orderly.served (served_refuse _ _))

/-- A request that is taken from its ticket is missing from the accounts until it is served. -/
theorem Orderly.unpark (hc : c.Orderly) {ticket : LookupTicket} {p : ParkedRequest}
    {l : RequestLedger} (h : c.ledger.unpark? ticket = some (p, l)) :
    ({ c with ledger := l } : Connection σ ρ).Orderly ∧ c.status ≠ .disconnected ∧
      c.ledger.Advances l ∧
      ∀ call, c.tally call = ({ c with ledger := l } : Connection σ ρ).tally call +
        [p.call].count call := by
  have hadvances := RequestLedger.advances_unpark h
  have hstatus : c.status ≠ .disconnected := by
    intro hgone
    obtain ⟨hp, -⟩ := RequestLedger.unpark?_eq_some_iff.mp h
    rw [(hc.gone hgone).2] at hp
    cases hp
  refine ⟨⟨hc.issued.of_advances hadvances, fun hgone => absurd hgone hstatus, hc.ended⟩, hstatus,
    hadvances, fun call => ?_⟩
  have := (RequestLedger.callsParked_unpark h).count_eq call
  have hflight : l.callsInFlight = c.ledger.callsInFlight := by
    rw [(RequestLedger.unpark?_eq_some_iff.mp h).2]
    rfl
  simp only [Connection.tally, hflight, List.count_cons, List.count_nil] at this ⊢
  omega

/-- What serves a request that was taken from its ticket balances the accounts again. -/
theorem Orderly.served_unparked (hc : c.Orderly) {ticket : LookupTicket} {p : ParkedRequest}
    {l : RequestLedger} (h : c.ledger.unpark? ticket = some (p, l))
    (h₁ : ({ c with ledger := l } : Connection σ ρ).Receives [p.call] c₁) : c.Receives [] c₁ := by
  obtain ⟨-, -, hadvances, htally⟩ := hc.unpark h
  have hflight : l.inFlight = c.ledger.inFlight := by
    rw [(RequestLedger.unpark?_eq_some_iff.mp h).2]
  have htaken : c.KeepsRequests { c with ledger := l } :=
    .of_ledger (List.append_nil _).symm hflight
  exact ⟨h₁.orderly, fun call => (h₁.tally call).trans (htally call).symm,
    hadvances.trans h₁.advances, h₁.shutDown, htaken.trans h₁.requests⟩

theorem Orderly.failLookup (hc : c.Orderly) (ticket : LookupTicket) (e : Error) :
    c.Receives [] (c.failLookup ticket e).2 := by
  unfold Connection.failLookup
  cases hunpark : c.ledger.unpark? ticket with
  | none => exact hc.refl
  | some taken =>
    obtain ⟨p, l⟩ := taken
    exact hc.served_unparked hunpark ((hc.unpark hunpark).1.answer p.call _)

theorem Orderly.resumeLookup (hc : c.Orderly) {ticket : LookupTicket} {target : Handle}
    {outcome : Except Error Unit} (h : c.resumeLookup ticket target = .ok (outcome, c₁)) :
    c.Receives [] c₁ := by
  unfold Connection.resumeLookup at h
  cases hunpark : c.ledger.unpark? ticket with
  | none =>
    simp only [hunpark] at h
    cases h
    exact hc.refl
  | some taken =>
    obtain ⟨p, l⟩ := taken
    simp only [hunpark] at h
    obtain ⟨c', hpresent, h⟩ := Except.bind_eq_ok.mp h
    cases h
    obtain ⟨hl, hstatus, -⟩ := hc.unpark hunpark
    exact hc.served_unparked hunpark (hl.present hstatus hpresent)

/-- A request whose target must be looked up waits for its ticket, or is answered at once. -/
theorem Orderly.beginLookup (hc : c.Orderly) (hstatus : c.status ≠ .disconnected) (call : CallId)
    (r : ValidRequest) (entity : EntityType) (id : String) :
    c.Receives [call] (c.beginLookup call r entity id) := by
  have hadvances := c.ledger.advances_park ⟨call, r⟩
  have hparked : c.Receives [call] ({ c with ledger := c.ledger.park ⟨call, r⟩ }.record
      [.lookup c.ledger.nextTicket entity id]) := by
    refine ⟨⟨hc.issued.of_advances hadvances, fun hgone => absurd hgone hstatus, hc.ended⟩,
      fun call' => ?_, hadvances, fun hs => hs, .of_ledger rfl rfl⟩
    have := (hc.issued.callsParked_park ⟨call, r⟩).count_eq call'
    have hflight : (c.ledger.park ⟨call, r⟩).callsInFlight = c.ledger.callsInFlight := rfl
    rw [tally_record]
    simp only [Connection.tally, hflight, List.count_cons, List.count_nil] at this ⊢
    have hlog : answeredCalls [.lookup c.ledger.nextTicket entity id] = [] := rfl
    rw [hlog, List.count_nil]
    omega
  unfold Connection.beginLookup
  cases hfailure : c.backend.lookupFailure c.ledger.nextTicket entity id with
  | none =>
    simp only [Connection.record, hfailure]
    exact hparked
  | some e =>
    simp only [Connection.record, hfailure]
    exact hparked.trans (hparked.orderly.failLookup _ e)

/-- A request is answered at once, or waits in flight or on a ticket. -/
theorem Orderly.request (hc : c.Orderly) {call : CallId} {method : RequestMethod}
    {properties : PropertyMap} (h : c.request call method properties = .ok c₁) :
    c.Receives [call] c₁ := by
  unfold Connection.request at h
  by_cases hconnected : c.status = .connected
  · have hstatus : c.status ≠ .disconnected := by rw [hconnected]; decide
    rw [if_pos hconnected] at h
    cases hvalid : properties.validate method with
    | error m =>
      simp only [hvalid] at h
      cases h
      exact hc.answer call _
    | ok r =>
      simp only [hvalid, submit] at h
      cases hfound : c.findTarget r with
      | ok found =>
        obtain ⟨target, tables⟩ := found
        simp only [hfound] at h
        have htables : c.Receives [] { c with tables } := hc.quiet rfl rfl rfl rfl unlogged
        exact htables.trans (htables.orderly.present hstatus h)
      | error e =>
        cases e with
        | lookupRequired entity id =>
          simp only [hfound] at h
          cases h
          exact hc.beginLookup hstatus call r entity id
        | _ =>
          simp only [hfound] at h
          cases h
          exact hc.answer call _
  · rw [if_neg hconnected] at h
    cases h
    exact hc.answer call _

end Telepathy.Connection

import Telepathy.Channel.Scripted
import Telepathy.Proofs.Connection.Offering

set_option autoImplicit false

/-!
# Requests go to the first manager that accepts

Whatever managers there are and whatever they do while they are asked, a request has one owner and
one reply. It is offered up to the first manager that accepts. If nobody has reported on it by then,
that manager is to report on it later, or the caller is told that nobody takes it. If somebody has,
nothing is left to be done, be it accepted or declined.
-/

namespace Telepathy

variable {σ ρ : Type}

namespace Connection

variable {c c₀ c₁ last : Connection σ ρ} {op : Operation σ ρ} {call : CallId} {r : ValidRequest}
  {target : Option Handle} {request : ChannelRequest} {p : PendingRequest}

/-! ## Presenting a request -/

/-- In the course of an operation the target of a request is found, at once or by a lookup, and the
connection presents it to its managers as `c₀`. -/
inductive Presents (c : Connection σ ρ) :
    Operation σ ρ → CallId → ValidRequest → Option Handle → Connection σ ρ → Prop
  | submitted {call : CallId} {method : RequestMethod} {properties : PropertyMap}
      {r : ValidRequest} {target : Option Handle} {tables : HandleTables}
      (hstatus : c.status = .connected) (hr : properties.validate method = .ok r)
      (h : c.findTarget r = .ok (target, tables)) :
      Presents c (.request call method properties) call r target (c.withTables tables)
  | resumed {ticket : LookupTicket} {entity : EntityType} {name : ContactName} {q : ParkedRequest}
      {t : HandleTable} {x : Handle} (hq : c.ledger.parked.get? ticket = some q)
      (ht : c.tables.get? entity = some t) (hname : (t.resolve name).1 = .ok x) :
      Presents c (.lookupFound ticket entity name) q.call q.request (some x)
        { c with
          tables := c.tables.set entity (t.resolve name).2
          ledger := { c.ledger with parked := c.ledger.parked.erase ticket } }

namespace Presents

theorem step (h : c.Presents op call r target c₀) :
    c.step op = (c₀.present call r target).map quietly := by
  cases h with
  | submitted hstatus hr h =>
    exact step_request_of_found call hstatus (PropertyMap.validate_eq_ok_iff.mp hr) h
  | resumed hq ht hname =>
    rw [Connection.step, completeLookup, HandleTables.get_eq_ok.mpr ht]
    simp only [hname, resumeLookup, RequestLedger.unpark?, hq, Option.map_some]
    cases present _ _ _ (some _) <;> rfl

theorem managers (h : c.Presents op call r target c₀) : c₀.managers = c.managers := by
  cases h <;> rfl

theorem log (h : c.Presents op call r target c₀) : c₀.log = c.log := by
  cases h <;> rfl

theorem offers (h : c.Presents op call r target c₀) : c₀.offers = c.offers := by
  rw [Connection.offers, h.log, Connection.offers]

/-- It is a request that a client made, now or before. -/
theorem supplied {backend : Backend} {config : Config} {tables : HandleTables}
    {plans : List (ManagerPlan σ ρ)} {ops : List (Operation σ ρ)}
    (hrun : (new backend config tables plans).run ops = .ok c)
    (h : c.Presents op call r target c₀) :
    .request call r.method r.properties ∈ ops ++ [op] := by
  cases h with
  | submitted hstatus hr h =>
    have hr := PropertyMap.validate_eq_ok_iff.mp hr
    rw [hr.method, hr.properties]
    exact List.mem_append_right _ List.mem_cons_self
  | resumed hq ht hname => exact List.mem_append_left _ (run_parked hrun hq).1

end Presents

/-! ## What has become of it -/

/-- Nobody accepts a request, and nobody reports on it while it is offered. -/
def Unclaimed (c : Connection σ ρ) (request : ChannelRequest) : Prop :=
  c.managers.any (·.accepts request) = false ∧
    ∀ seat ∈ c.hearers request, ¬ c.ReportedAt request seat

/-- What the caller of a request is told that nobody takes. -/
def unsupported (request : ChannelRequest) : Error :=
  ⟨.notImplemented, s!"unsupported channel type {request.channelType}"⟩

/-- What has become of a request in flight, and of the managers, when the request was offered by `c`
and the outcome was seen to. -/
structure Placed (c : Connection σ ρ) (request : ChannelRequest) (p : PendingRequest)
    (c₁ : Connection σ ρ) : Prop where
  /-- Managers are asked in their order, up to the first that accepts. -/
  offers : c₁.offers = c.offers ++ (c.hearers request).map (·, request)
  /-- Nobody else knows of it. -/
  others : ∀ seat, seat ∉ c.hearers request → c₁.managers[seat]? = c.managers[seat]?
  /-- Whoever is asked finds the request in flight, unless somebody before has reported on it. -/
  asked : ∀ seat ∈ c.hearers request, ∀ m, c.managers[seat]? = some m → ∃ before,
    c.ComesTo request seat m before ∧
      c₁.managers[seat]? = some (m.offer before.tables request).2.manager ∧
      (reportedTokens (m.offer before.tables request).2.effects).Nodup ∧
      (before.AwaitsReport request.token p ∨ ∃ seat' < seat, c.ReportedAt request seat')
  /-- It is left to whoever accepted, if nobody has reported on it. -/
  kept : c.managers.any (·.accepts request) = true →
    (∀ seat ∈ c.hearers request, ¬ c.ReportedAt request seat) →
      c.offerTo request c.seats = .ok (.accepted, c₁) ∧ c₁.AwaitsReport request.token p
  /-- If nobody accepted either, it is answered, and that is the end of it. -/
  refused : c.Unclaimed request →
    ∃ last, c.offerTo request c.seats = .ok (.declined, last) ∧
      last.AwaitsReport request.token p ∧
      c₁.log = last.log ++ [.answered p.call (.failed (unsupported request))] ∧
      c₁.ledger.Resolved request.token
  /-- If somebody has reported on it, only one has, and nothing is left to be done. -/
  resolved : ∀ seat ∈ c.hearers request, c.ReportedAt request seat →
    (∀ seat' ∈ c.hearers request, c.ReportedAt request seat' → seat' = seat) ∧
      (∃ o, c.offerTo request c.seats = .ok (o, c₁)) ∧ c₁.ledger.Resolved request.token

theorem refuse_of_inFlight (hp : c.ledger.inFlight.get? request.token = some p) :
    c.refuse request =
      { c with
        ledger := c.ledger.without [request.token]
        tables := c.tables.releaseAll p.target.toList }.answer p.call
          (.failed (unsupported request)) := by
  rw [refuse, RequestLedger.claim_eq_ok_iff.mpr ⟨hp, rfl⟩]
  rfl

theorem refuse_of_absent (hnone : c.ledger.inFlight.get? request.token = none) :
    c.refuse request = c := by
  rw [refuse, RequestLedger.claim, hnone]

theorem managers_refuse (c : Connection σ ρ) (request : ChannelRequest) :
    (c.refuse request).managers = c.managers := by
  unfold refuse
  split <;> rfl

/-- The outcome of an offer is seen to as it should be. -/
theorem Heard.placed {k : Nat} (h : c.Heard request p k last)
    (hissued : request.token.number ≤ c.ledger.tokens)
    (hhearers : c.hearers request = List.range k) {o : Offer}
    (ho : o = if c.managers.any (·.accepts request) then .accepted else .declined)
    (hoffer : c.offerTo request c.seats = .ok (o, last)) :
    c.Placed request p (if o = .accepted then last else last.refuse request) := by
  have hmem : ∀ seat, seat ∈ c.hearers request ↔ seat < k := fun seat => by
    rw [hhearers, List.mem_range]
  have hmanagers : (if o = .accepted then last else last.refuse request).managers =
      last.managers := by
    split
    · rfl
    · exact managers_refuse last request
  have hoffers : (if o = .accepted then last else last.refuse request).offers = last.offers := by
    split
    · rfl
    · exact offers_refuse last request
  have hissued' : request.token.number ≤ last.ledger.tokens :=
    Nat.le_trans hissued h.served.advances.tokens
  have hpending : (∀ seat ∈ c.hearers request, ¬ c.ReportedAt request seat) →
      last.ledger.inFlight.get? request.token = some p := fun hnobody => by
    cases h.settled with
    | nobody hp _ => exact hp
    | one _ hseat hone =>
      exact absurd ((hone _ hseat).mpr rfl) (hnobody _ ((hmem _).mpr hseat))
  refine ⟨?_, fun seat hseat => ?_, fun seat hseat m hm => ?_, fun haccepts hnobody => ?_,
    fun hunclaimed => ?_, fun seat hseat hreported => ?_⟩
  · rw [hoffers, h.offers, hhearers]
  · rw [hmanagers]
    exact h.others seat (Nat.le_of_not_lt fun hlt => hseat ((hmem seat).mpr hlt))
  · rw [hmanagers]
    exact h.asked seat m ((hmem seat).mp hseat) hm
  · rw [haccepts] at ho
    cases ho
    exact ⟨hoffer, awaitsReport_of_inFlight (hpending hnobody)⟩
  · rw [hunclaimed.1] at ho
    cases ho
    have hp := hpending hunclaimed.2
    refine ⟨last, hoffer, awaitsReport_of_inFlight hp, ?_, ?_, isPending_refuse last request⟩
    · rw [if_neg (by simp), refuse_of_inFlight hp]
      rfl
    · exact Nat.le_trans hissued' (served_refuse last request).advances.tokens
  · cases h.settled with
    | nobody _ hnobody => exact absurd hreported (hnobody seat ((hmem seat).mp hseat))
    | one hnone _ hone =>
      obtain rfl := (hone seat ((hmem seat).mp hseat)).mp hreported
      rw [refuse_of_absent hnone, ite_self]
      exact ⟨fun seat' hseat' => (hone seat' ((hmem seat').mp hseat')).mp, ⟨o, hoffer⟩, hissued',
        RequestLedger.isPending_eq_false_iff.mpr hnone⟩

/-- A request that was presented was placed, and what was in flight is in flight still or was
answered. -/
theorem placed_of_present (h : c.present call r target = .ok c₁) :
    (c.tracking call r target).Placed (c.offering r target)
        ⟨call, r.method, target.map (Reference.mk r.entity)⟩ c₁ ∧
      (c.tracking call r target).Served c₁ := by
  let asking := c.tracking call r target
  let p : PendingRequest := ⟨call, r.method, target.map (Reference.mk r.entity)⟩
  have hp : asking.ledger.inFlight.get? (c.offering r target).token = some p :=
    SortedMap.get?_insert_self _ _ _
  rw [present_eq] at h
  obtain ⟨⟨o, last⟩, hoffer, h⟩ := Except.bind_eq_ok.mp h
  obtain ⟨k, hhearers, hheard, ho⟩ := heard_of_offerTo hp hoffer
  have hplaced := hheard.placed (Nat.le_refl _) hhearers ho hoffer
  cases o with
  | accepted =>
    cases h
    exact ⟨hplaced, hheard.served⟩
  | declined =>
    cases h
    exact ⟨hplaced, hheard.served.trans (served_refuse last _)⟩

/-! ## Replies -/

theorem mem_answersTo {a : CallAnswer} : a ∈ c.answersTo call ↔ .answered call a ∈ c.log := by
  rw [answersTo, List.mem_map]
  constructor
  · rintro ⟨⟨call', a'⟩, hmem, rfl⟩
    obtain ⟨hmem, hcall⟩ := List.mem_filter.mp hmem
    obtain ⟨e, he, heq⟩ := List.mem_filterMap.mp hmem
    cases e <;> cases heq
    exact of_decide_eq_true hcall ▸ he
  · intro h
    exact ⟨(call, a), List.mem_filter.mpr ⟨List.mem_filterMap.mpr ⟨_, h, rfl⟩, by simp⟩, rfl⟩

/-- Who waits for a manager, and is accounted for once, was not answered. -/
theorem answersTo_of_inFlight {token : RequestToken}
    (hp : c.ledger.inFlight.get? token = some p) (hone : c.tally p.call = 1) :
    c.answersTo p.call = [] := by
  have hwaits : p.call ∈ c.ledger.callsInFlight :=
    List.mem_map_of_mem (SortedMap.mem_values.mpr ⟨token, hp⟩)
  have hpos := List.count_pos_iff.mpr hwaits
  rw [tally] at hone
  refine List.length_eq_zero_iff.mp ((length_answersTo c p.call).trans ?_)
  omega

/-- Who was answered, and is accounted for once, was answered once. -/
theorem length_answersTo_of_answered {a : CallAnswer} (h : .answered call a ∈ c.log)
    (hone : c.tally call = 1) : (c.answersTo call).length = 1 := by
  have hpos := List.count_pos_iff.mpr (mem_answeredCalls.mpr ⟨a, h⟩)
  rw [tally] at hone
  rw [length_answersTo]
  omega

/-- A request that was put in flight is there still, or it was answered once. -/
theorem KeepsRequests.replies {token : RequestToken} (h : c.KeepsRequests c₁)
    (hp : c.ledger.inFlight.get? token = some p)
    (hdone : c₁.ledger.inFlight.get? token = some p ∨ c₁.ledger.Resolved token)
    (hone : c₁.tally p.call = 1) :
    (c₁.answersTo p.call).length = if c₁.ledger.isPending token then 0 else 1 := by
  rcases hdone with hp' | ⟨-, hresolved⟩
  · rw [if_pos (RequestLedger.isPending_iff.mpr ⟨p, hp'⟩), answersTo_of_inFlight hp' hone]
    rfl
  · obtain ⟨events, hlog, hanswered⟩ := h
    rcases hanswered token p hp with hp' | ⟨a, ha, -⟩
    · cases (RequestLedger.isPending_eq_false_iff.mp hresolved).symm.trans hp'
    · rw [if_neg (by simp [hresolved])]
      exact length_answersTo_of_answered (hlog ▸ List.mem_append_right _ ha) hone

/-- What managers do with a request in flight resolves it or leaves it as it is. -/
theorem Served.pending_or_resolved {token : RequestToken} (h : c.Served c₁)
    (hp : c.ledger.inFlight.get? token = some p) (hissued : token.number ≤ c.ledger.tokens) :
    c₁.ledger.inFlight.get? token = some p ∨ c₁.ledger.Resolved token := by
  obtain ⟨tokens, hledger⟩ := h.ledger
  by_cases hmem : token ∈ tokens
  · refine .inr ⟨Nat.le_trans hissued h.advances.tokens, ?_⟩
    rw [RequestLedger.isPending_eq_false_iff, hledger, RequestLedger.get?_without, if_pos hmem]
  · refine .inl ?_
    rw [hledger, RequestLedger.get?_without, if_neg hmem, hp]

/-- How a request fares while some operations turn `c` into `c₁`. -/
structure Fares (c : Connection σ ρ) (token : RequestToken) (p : PendingRequest)
    (ops : List (Operation σ ρ)) (c₁ : Connection σ ρ) : Prop where
  /-- It stays in flight until a report on it, or the end of the connection. -/
  waiting : c.ledger.inFlight.get? token = some p →
    c₁.AwaitsReport token p ∨ c.DischargedIn token p ops ∧ c₁.ledger.Resolved token
  /-- What is resolved stays resolved. -/
  done : c.ledger.Resolved token → c₁.ledger.Resolved token
  /-- There is no second report. -/
  barred : c₁.ledger.Resolved token → ∀ report : Report, token ∈ report.tokens →
    ∃ crash, c₁.settle report = .error crash

theorem Orderly.fares {token : RequestToken} (hc : c.Orderly) {ops : List (Operation σ ρ)}
    (h : c.run ops = .ok c₁) : c.Fares token p ops c₁ where
  waiting hp := (hc.departs hp h).imp_left awaitsReport_of_inFlight
  done hresolved := hresolved.of_advances (hc.run h).advances
  barred hresolved _ hmem := settle_of_absent hmem hresolved.2

/-! ## The owner of a request -/

/-- A request that was presented goes to the first manager that accepts it. Managers are asked in
their order, each once and through the entry point of the method, up to that one; all the while the
request is in flight, so that whoever is asked may report on it, and the offer succeeds unless
somebody reports what it must not. What nobody takes is answered as not implemented; what somebody
has reported on is answered by that, be it accepted or not; and what was only accepted stays in
flight until one report, or the end of the connection. Either way there is one reply. -/
theorem first_accepting_manager_owns (backend : Backend) (config : Config) (tables : HandleTables)
    (plans : List (ManagerPlan σ ρ)) {ops : List (Operation σ ρ)} {c : Connection σ ρ}
    (hrun : (new backend config tables plans).run ops = .ok c) {op : Operation σ ρ}
    {call : CallId} {r : ValidRequest} {target : Option Handle} {c₀ : Connection σ ρ}
    (hpresents : c.Presents op call r target c₀) :
    let request := c₀.offering r target
    let p : PendingRequest := ⟨call, r.method, target.map (Reference.mk r.entity)⟩
    let asking := c₀.tracking call r target
    .request call r.method r.properties ∈ ops ++ [op] ∧
    asking.managers = c.managers ∧ asking.log = c.log ∧
    (∀ (m : Manager σ ρ) tables,
      (m.offer tables request).1 = if m.accepts request then .accepted else .declined) ∧
    (∀ (b : Behaviour σ) state tables,
      let response := b.entry r.method state request
      (Manager.custom b state : Manager σ ρ).offer tables request =
        (response.offer, Manager.finish tables b state response.state response.effects)) ∧
    (∀ channels classes create ensure suppress,
      ({ channels, classes, create, ensure } : Behaviour σ).entry (.legacy suppress) = ensure) ∧
    (∃ asked, asked <+: c.hearers request ∧
      offersIn (logAfter (fun out => out.2.log) (c.step op)) =
        c.offers ++ asked.map (·, request)) ∧
    ((∀ seat m before, asking.ComesTo request seat m before →
      before.Reportable (m.offer before.tables request).2.effects) →
        ∃ out, c.step op = .ok out) ∧
    ∀ out, c.step op = .ok out →
      asking.Placed request p out.2 ∧
      ∀ ops' c', out.2.run ops' = .ok c' →
        out.2.Fares request.token p ops' c' ∧
        ((delivered (ops ++ op :: ops')).Nodup →
          (c'.answersTo call).length = (if c'.ledger.isPending request.token then 0 else 1) ∧
          (asking.Unclaimed request → c'.answersTo call = [.failed (unsupported request)])) := by
  intro request p asking
  have hsame : asking.managers = c.managers := hpresents.managers
  have hlog : asking.log = c.log := hpresents.log
  have hhearers : asking.hearers request = c.hearers request := by
    rw [hearers, hearers, seats, seats, hsame]
  have hp : asking.ledger.inFlight.get? request.token = some p := SortedMap.get?_insert_self _ _ _
  have hstep := hpresents.step
  have hsupplied := hpresents.supplied hrun
  have hc := (orderly_new backend config tables plans).run hrun
  refine ⟨hsupplied, hsame, hlog, fun m tables => m.offer_fst tables request,
    fun b state tables => ?_, fun _ _ _ _ _ => rfl, ?_, fun hreportable => ?_, fun out hout => ?_⟩
  · simp only [Manager.offer, b.answer_eq_entry]
    rfl
  · obtain ⟨asked, hasked, hoffers⟩ := offers_within_hearers hp
    refine ⟨asked, hhearers ▸ hasked, ?_⟩
    rw [hstep, logAfter_map, ← hpresents.offers]
    exact (offers_present call r target).trans hoffers
  · obtain ⟨o, last, hoffer⟩ := offerTo_isOk hreportable
    rw [hstep, present_eq, seats, hoffer]
    cases o <;> exact ⟨_, rfl⟩
  · obtain ⟨c₁, hpresent, rfl⟩ := Except.map_eq_ok.mp (hstep.symm.trans hout)
    obtain ⟨hplaced, hserved⟩ := placed_of_present hpresent
    refine ⟨hplaced, fun ops' c' hrun' => ?_⟩
    have hfirst := hc.orderly.step hout
    have hsecond := hfirst.orderly.run hrun'
    have hfares : (quietly c₁).2.Fares request.token p ops' c' := hfirst.orderly.fares hrun'
    refine ⟨hfares, fun hdistinct => ?_⟩
    have hdone : c'.ledger.inFlight.get? request.token = some p ∨
        c'.ledger.Resolved request.token := by
      rcases hserved.pending_or_resolved hp (Nat.le_refl _) with hp' | hresolved
      · exact (hfares.waiting hp').imp (·.inFlight) (·.2)
      · exact .inr (hfares.done hresolved)
    have hone : c'.tally call = 1 := by
      have hwhole : (new backend config tables plans).run (ops ++ op :: ops') = .ok c' :=
        run_append.mpr ⟨c, hrun, run_cons.mpr ⟨_, hout, hrun'⟩⟩
      have hmem : call ∈ delivered (ops ++ op :: ops') := by
        have hrequested : .request call r.method r.properties ∈ ops ++ op :: ops' := by
          rw [List.append_cons]
          exact List.mem_append_left _ hsupplied
        exact List.mem_filterMap.mpr ⟨_, hrequested, rfl⟩
      rw [tally_of_run hwhole, hdistinct.count, if_pos hmem]
    have hreplies : (c'.answersTo call).length =
        if c'.ledger.isPending request.token then 0 else 1 :=
      (hserved.requests.trans hsecond.requests).replies hp hdone hone
    refine ⟨hreplies, fun hunclaimed => ?_⟩
    -- The answer that it got then is the only one.
    obtain ⟨last, -, -, hlog', hresolved⟩ := hplaced.refused hunclaimed
    obtain ⟨events, hlater, -⟩ := hsecond.requests
    have hanswer : .answered call (.failed (unsupported request)) ∈ c₁.log := by
      rw [hlog']
      exact List.mem_append_right _ List.mem_cons_self
    have hanswered : .failed (unsupported request) ∈ c'.answersTo call := by
      rw [mem_answersTo, hlater]
      exact List.mem_append_left _ hanswer
    rw [if_neg (by simp [(hfares.done hresolved).2])] at hreplies
    obtain ⟨a, ha⟩ := List.length_eq_one_iff.mp hreplies
    rw [ha, List.mem_singleton] at hanswered
    rw [hanswered]
    exact ha

/-- A connection with three managers: one takes nothing, one keeps texts, and one keeps
everything. -/
def threeScripts : Connection ScriptedManager Unit :=
  .new ⟨"sample", "account", [], [], none, false, fun _ _ _ => none⟩ .standard
    ⟨.onDemand .contact, none, none, none⟩
    [.custom ScriptedManager.behaviour fun path =>
      ⟨0, path, [], [], []⟩,
    .custom ScriptedManager.behaviour fun path =>
      ⟨1, path, [⟨some "text", none, none, .hold⟩], [], []⟩,
    .custom ScriptedManager.behaviour fun path =>
      ⟨2, path, [⟨none, none, none, .hold⟩], [], []⟩]

/-- The connection becomes connected. -/
def comingOnline : List (Operation ScriptedManager Unit) :=
  [.setSelf (.id "user"), .changeStatus .connected .requested]

/-- The request of an old client for a text channel with nobody. -/
def textWithNobody : ValidRequest :=
  ⟨.legacy false, "text", .none, .none, .ofList [(Property.channelType, .text "text")]⟩

/-- A text is kept by the second manager, and the third never hears of it; the caller waits until
the second reports that it failed. -/
theorem text_owned_by_second :
    ∃ c out c', threeScripts.run comingOnline = .ok c ∧
      c.step (.request ⟨1⟩ textWithNobody.method textWithNobody.properties) = .ok out ∧
      out.2.offers.map Prod.fst = [0, 1] ∧ out.2.answersTo ⟨1⟩ = [] ∧
      out.2.run [.report (.failed ⟨1⟩ ⟨.notAvailable, "busy"⟩)] = .ok c' ∧
      (c'.answersTo ⟨1⟩).length = 1 := by
  have hvalid : textWithNobody.properties.validate textWithNobody.method = .ok textWithNobody := by
    have hany : (textWithNobody.properties.validate textWithNobody.method).toOption.any
        (· = textWithNobody) = true := by decide +kernel
    obtain ⟨r, hr, heq⟩ := Except.eq_ok_of_any hany
    rw [hr, of_decide_eq_true heq]
  have heval : ((threeScripts.run comingOnline).toOption.any fun c =>
        decide (c.status = .connected ∧ c.offers = [] ∧ c.ledger.tokens = 0 ∧
          c.hearers (c.offering textWithNobody none) = [0, 1]) &&
        (c.step (.request ⟨1⟩ textWithNobody.method textWithNobody.properties)).toOption.any
          fun out => out.2.ledger.isPending ⟨1⟩ &&
            (out.2.run [.report (.failed ⟨1⟩ ⟨.notAvailable, "busy"⟩)]).toOption.any
              fun c' => !c'.ledger.isPending ⟨1⟩) = true := by decide +kernel
  obtain ⟨c, hrun, hc⟩ := Except.eq_ok_of_any heval
  rw [Bool.and_eq_true, decide_eq_true_iff] at hc
  obtain ⟨⟨hstatus, hnone, htokens, hhearers⟩, hout⟩ := hc
  obtain ⟨out, hstep, hafter⟩ := Except.eq_ok_of_any hout
  rw [Bool.and_eq_true] at hafter
  obtain ⟨hpending, hreport⟩ := hafter
  obtain ⟨c', hrun', hresolved⟩ := Except.eq_ok_of_any hreport
  have hfound : c.findTarget textWithNobody = .ok (none, c.tables) := rfl
  obtain ⟨-, -, -, -, -, -, -, -, hplaced⟩ :=
    first_accepting_manager_owns _ _ _ _ hrun (.submitted hstatus hvalid hfound)
  obtain ⟨hplaced, hlater⟩ := hplaced out hstep
  have htoken : ((c.withTables c.tables).offering textWithNobody none).token = ⟨1⟩ := by
    show RequestToken.mk (c.ledger.tokens + 1) = ⟨1⟩
    rw [htokens]
  have hreplies : ∀ ops c', out.2.run ops = .ok c' → delivered ops = [] →
      (c'.answersTo ⟨1⟩).length = if c'.ledger.isPending ⟨1⟩ then 0 else 1 := by
    intro ops c' hrun' hnobody
    have hcalls : delivered (comingOnline ++ .request ⟨1⟩ textWithNobody.method
        textWithNobody.properties :: ops) = ⟨1⟩ :: delivered ops := rfl
    rw [hnobody] at hcalls
    have hlength := ((hlater ops c' hrun').2 (hcalls ▸ List.pairwise_singleton _ _)).1
    rwa [htoken] at hlength
  refine ⟨c, out, c', hrun, hstep, ?_, ?_, hrun', ?_⟩
  · rw [hplaced.offers]
    show (c.offers ++ (c.hearers (c.offering textWithNobody none)).map _).map _ = _
    rw [hnone, hhearers]
    rfl
  · refine List.length_eq_zero_iff.mp ((hreplies [] out.2 rfl rfl).trans ?_)
    rw [if_pos hpending]
  · rw [hreplies _ c' hrun' rfl, if_neg (by simpa using hresolved)]

end Connection

end Telepathy

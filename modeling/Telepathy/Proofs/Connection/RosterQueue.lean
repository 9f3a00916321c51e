import Telepathy.Proofs.Connection.Conservation
import Telepathy.Proofs.Connection.FirstTaker
import Telepathy.Proofs.Connection.Outcomes
import Telepathy.Proofs.Connection.Tables
import Telepathy.Proofs.ContactList.RosterQueue

set_option autoImplicit false

/-!
# The queue for the roster

In every run, no more requests wait for the roster of a contact list than may. One that comes to the
full queue is answered with a failure and leaves no trace. When it turns out that the roster cannot
be retrieved, everybody in the queue is answered once, and whoever comes later is answered the same
at once, as long as the connection lasts.
-/

namespace Telepathy

variable {σ ρ : Type}

/-! ## Contact lists of a connection -/

theorem Manager.bounded_lasting (limit : Nat) :
    Manager.Lasting (σ := σ) (ρ := ρ) (Manager.OfLists fun _ list => list.Bounded limit) :=
  Manager.lasting_ofLists (fun _ _ r h => ContactScene.bounded_offer r h)
    (fun _ _ op h => ContactScene.bounded_perform op h)
    fun _ _ h => ContactScene.bounded_disconnect h

theorem Manager.bounded_build (config : Config) (path : ObjectPath) (tables : HandleTables)
    (plan : ManagerPlan σ ρ) :
    Manager.OfLists (fun _ list => list.Bounded config.rosterQueueLimit)
      (plan.build config path tables).1 := by
  cases plan with
  | custom b state => trivial
  | contacts server data => exact ContactScene.bounded_openLists server rfl rfl

/-- Once it is known what became of the roster of a contact list, that only changes when the
connection goes away. -/
theorem Manager.Ends.roster {start : Connection σ ρ} {op : Operation σ ρ} {seat : Nat}
    {status : Status} {tables : HandleTables} {server : ContactServer ρ} {list : ContactList}
    {data : ρ} {t : Turn σ ρ}
    (h : (Manager.contacts server list data).Ends start op seat status tables t)
    (harrived : list.roster ≠ .pending) :
    ∃ list' data', t.manager = .contacts server list' data' ∧
      (list'.roster = list.roster ∨ list'.roster = .disconnected ∧ status = .disconnected) := by
  let s : ContactScene ρ := ⟨list, data, tables, []⟩
  cases h with
  | @offer r htarget =>
    exact ⟨_, _, rfl, .inl (congrArg Prod.snd (ContactScene.settings_offer server s r))⟩
  | statusChanged =>
    refine ⟨_, _, rfl, ?_⟩
    by_cases hgone : status = .disconnected
    · rw [if_pos hgone]
      exact .inr ⟨congrArg Prod.snd s.settings_disconnect, hgone⟩
    · rw [if_neg hgone]
      exact .inl rfl
  | performContacts _ _ _ hperform =>
    cases hperform
    exact ⟨_, _, rfl,
      .inl (congrArg Prod.snd (ContactScene.settings_perform_of_arrived server s harrived _))⟩
  | changeServer _ _ _ _ hchange =>
    cases hchange
    exact ⟨_, _, rfl, .inl rfl⟩
  | changeState _ _ _ hchange => cases hchange

namespace Connection

variable {start c c₀ c₁ : Connection σ ρ} {op : Operation σ ρ} {seat : Nat}
  {server : ContactServer ρ} {list : ContactList} {data : ρ} {e : Error}

/-! ## Failures -/

/-- Requests that fail are answered one after the other. -/
theorem performAll_failed (tokens : List RequestToken)
    (h : (tokens.map fun token => Effect.report (.failed token e)).foldlM (perform seat) c =
      .ok c₁) :
    ∃ ps : List PendingRequest, tokens.map c.ledger.inFlight.get? = ps.map some ∧
      c₁.log = c.log ++ ps.map fun p => .answered p.call (.failed e) := by
  induction tokens generalizing c with
  | nil =>
    cases h
    exact ⟨[], rfl, (List.append_nil _).symm⟩
  | cons token tokens ih =>
    rw [List.map_cons, List.foldlM_cons] at h
    obtain ⟨c', hfirst, hrest⟩ := Except.bind_eq_ok.mp h
    obtain ⟨s, hs, rfl⟩ := settle_cases (Except.mapError_eq_ok.mp hfirst)
    obtain ⟨⟨p, l⟩, hclaim, hs⟩ := Except.bind_eq_ok.mp hs
    cases hs
    obtain ⟨hp, rfl⟩ := RequestLedger.claim_eq_ok_iff.mp hclaim
    obtain ⟨ps, hps, hlog⟩ := ih hrest
    have hleft : tokens.map (c.ledger.without [token]).inFlight.get? = ps.map some := hps
    -- What is in flight after the first report was so before.
    have hbefore : tokens.map c.ledger.inFlight.get? = ps.map some := by
      rw [← hleft]
      refine List.map_congr_left fun token' htoken' => ?_
      obtain ⟨p', -, hp'⟩ := RequestLedger.mem_of_claimed hleft htoken'
      have hkept := hp'
      rw [RequestLedger.get?_without] at hkept
      split at hkept
      · cases hkept
      · rw [hp', hkept]
    refine ⟨p :: ps, by rw [List.map_cons, List.map_cons, hp, hbefore], ?_⟩
    rw [hlog, List.map_cons]
    exact List.append_assoc ..

/-- Of a request that makes a contact list report a failure and nothing else, there is nothing left
but the answer. -/
theorem offerAt_of_fails {request : ChannelRequest} {p : PendingRequest} {o : Offer}
    (hm : c.managers[seat]? = some (.contacts server list data))
    (hp : c.ledger.inFlight.get? request.token = some p)
    (hfails : (ContactScene.mk list data c.tables []).offer server request =
      (.accepted, (ContactScene.mk list data c.tables []).fail [request.token] e))
    (h : c.offerAt request seat = .ok (o, c₁)) :
    c₁.log = c.log ++ [.offered seat request, .answered p.call (.failed e)] ∧
      c₁.managers[seat]? = c.managers[seat]? := by
  obtain ⟨-, -, hmanagers, -⟩ := offerAt_eq_ok hm h
  unfold offerAt at h
  rw [hm] at h
  simp only [Manager.offer, hfails] at h
  obtain ⟨c', hturn, heq⟩ := Except.map_eq_ok.mp h
  cases heq
  obtain ⟨ps, hps, hlog⟩ := performAll_failed [request.token] hturn
  have hps : [some p] = ps.map some := hp ▸ hps
  obtain ⟨q, rest, rfl, hq, hrest⟩ := List.map_eq_cons_iff.mp hps.symm
  cases hq
  obtain rfl := List.map_eq_nil_iff.mp hrest
  have hlength : seat < c.managers.length := (List.getElem?_eq_some_iff.mp hm).1
  refine ⟨hlog.trans (List.append_assoc ..), ?_⟩
  rw [hmanagers, List.getElem?_set_self hlength, hm]
  simp only [Manager.offer, hfails]
  rfl

/-- A request for a list or a group that comes to the check of the roster at a contact list. -/
structure Reaches (c : Connection σ ρ) (seat : Nat) (server : ContactServer ρ) (list : ContactList)
    (request : ChannelRequest) : Prop where
  hears : seat ∈ c.hearers request
  considers : list.Considers server request

/-- Whoever hears of a request was not preceded by anybody who accepts it. -/
theorem declines_of_hears {request : ChannelRequest} (h : seat ∈ c.hearers request) {seat' : Nat}
    (hseat : seat' < seat) {m : Manager σ ρ} (hm : c.managers[seat']? = some m) :
    m.accepts request = false := by
  rw [hearers, seats, List.take_range, List.mem_range] at h
  obtain ⟨hlength, rfl⟩ := List.getElem?_eq_some_iff.mp hm
  have hbefore : seat' < c.managers.findIdx (·.accepts request) := by omega
  exact List.not_of_lt_findIdx hbefore

/-- A request that comes to a contact list which has it fail is answered by that, and the contact
list stays as it is. -/
theorem present_of_fails {call : CallId} {r : ValidRequest} {target : Option Handle}
    {q : Error → Prop} (hm : c.managers[seat]? = some (.contacts server list data))
    (hreaches : c.Reaches seat server list (c.offering r target))
    (hfails : ∀ tables, ContactScene.Fails ⟨list, data, tables, []⟩ (c.offering r target) q
      ((ContactScene.mk list data tables []).offer server (c.offering r target)))
    (h : c.present call r target = .ok c₁) :
    ∃ e, q e ∧ c₁.log.getLast? = some (.answered call (.failed e)) ∧
      c₁.managers[seat]? = c.managers[seat]? := by
  let asking := c.tracking call r target
  let request := c.offering r target
  let p : PendingRequest := ⟨call, r.method, target.map (Reference.mk r.entity)⟩
  have hp : asking.ledger.inFlight.get? request.token = some p := SortedMap.get?_insert_self _ _ _
  have haccepts : (Manager.contacts server list data : Manager σ ρ).accepts request = true := by
    cases hreaches.considers with
    | list hr => simp [Manager.accepts, request, hr.1, hr.2]
    | group hr => simp [Manager.accepts, request, hr.1, hr.2]
  rw [present_eq] at h
  obtain ⟨⟨o, last⟩, hoffer, h⟩ := Except.bind_eq_ok.mp h
  cases o with
  | declined =>
    obtain ⟨-, hdecline⟩ := heard_of_declined hp (Nat.le_refl _) hoffer
    have hseat : seat < c.managers.length := (List.getElem?_eq_some_iff.mp hm).1
    cases (hdecline seat hseat _ hm).symm.trans haccepts
  | accepted =>
    cases h
    obtain ⟨seat', hseat', before, hfirst, hlast⟩ := offerTo_ended hoffer (by simp)
    obtain ⟨hheard, hdecline⟩ := heard_of_declined hp (Nat.le_of_lt hseat') hfirst
    have hfirst' : asking.managers[seat']? = some asking.managers[seat'] :=
      List.getElem?_eq_getElem hseat'
    obtain ⟨haccepts', -⟩ :=
      offerAt_eq_ok ((hheard.others seat' (Nat.le_refl _)).trans hfirst') hlast
    -- Nobody before this contact list accepts, and nobody is asked after it.
    obtain rfl : seat = seat' := by
      rcases Nat.lt_trichotomy seat seat' with hlt | heq | hlt
      · cases (hdecline seat hlt _ hm).symm.trans haccepts
      · exact heq
      · cases (declines_of_hears hreaches.hears hlt hfirst').symm.trans (haccepts'.mpr rfl)
    have hm' : before.managers[seat]? = some (.contacts server list data) :=
      (hheard.others seat (Nat.le_refl _)).trans hm
    obtain ⟨e, he, hfails⟩ := hfails before.tables
    -- The report of the contact list was carried out, so nobody had reported before.
    have hp' : before.ledger.inFlight.get? request.token = some p := by
      cases hheard.settled with
      | nobody hp' _ => exact hp'
      | one hnone _ _ =>
        obtain ⟨-, -, -, -, -, hpending⟩ := offerAt_eq_ok hm' hlast
        simp only [Manager.offer, hfails] at hpending
        have hreported := hpending request.token List.mem_cons_self
        cases (RequestLedger.isPending_eq_false_iff.mpr hnone).symm.trans hreported
    obtain ⟨hlog, hmanagers⟩ := offerAt_of_fails hm' hp' hfails hlast
    refine ⟨e, he, ?_, hmanagers.trans (hheard.others seat (Nat.le_refl _))⟩
    rw [hlog]
    exact List.getLast?_append_cons ..

/-- Whatever request comes to the check of the roster at a contact list, its caller is told an error
of which `q` holds, and the contact list stays as it is. -/
def FailsAt (c : Connection σ ρ) (seat : Nat) (server : ContactServer ρ) (list : ContactList)
    (q : Error → Prop) : Prop :=
  ∀ op call r target c₀, c.Presents op call r target c₀ →
    c.Reaches seat server list (c₀.offering r target) → ∀ out, c.step op = .ok out →
      ∃ e, q e ∧ out.2.log.getLast? = some (.answered call (.failed e)) ∧
        out.2.managers[seat]? = c.managers[seat]?

theorem failsAt_of_fails {q : Error → Prop}
    (hm : c.managers[seat]? = some (.contacts server list data))
    (hfails : ∀ request, list.Considers server request → ∀ tables,
      ContactScene.Fails ⟨list, data, tables, []⟩ request q
        ((ContactScene.mk list data tables []).offer server request)) :
    c.FailsAt seat server list q := by
  intro op call r target c₀ hpresents hreaches out hstep
  obtain ⟨c₁, hpresent, rfl⟩ := Except.map_eq_ok.mp (hpresents.step.symm.trans hstep)
  have hm₀ : c₀.managers[seat]? = some (.contacts server list data) := hpresents.managers ▸ hm
  have hreaches₀ : c₀.Reaches seat server list (c₀.offering r target) := by
    refine ⟨?_, hreaches.considers⟩
    have hhears := hreaches.hears
    rwa [hearers, seats, ← hpresents.managers] at hhears
  rw [← hpresents.managers]
  exact present_of_fails hm₀ hreaches₀ (hfails _ hreaches₀.considers) hpresent

/-! ## The roster that cannot be retrieved -/

/-- The contact list at a seat has given up its roster, or it is gone together with the
connection. -/
def GaveUpAt (c : Connection σ ρ) (seat : Nat) (server : ContactServer ρ) (e : Error) : Prop :=
  ∃ list data, c.managers[seat]? = some (.contacts server list data) ∧
    (list.roster = .failed e ∨ list.roster = .disconnected ∧ c.status = .disconnected)

theorem GaveUpAt.stage (h : c.GaveUpAt seat server e) (hstage : Stage start op c c₁) :
    c₁.GaveUpAt seat server e := by
  obtain ⟨list, data, hm, hroster⟩ := h
  have hroster' : list.roster = .failed e ∨
      list.roster = .disconnected ∧ c₁.status = .disconnected :=
    hroster.imp_right fun hgone => ⟨hgone.1, hstage.gone hgone.2⟩
  rcases hstage.managers with hsame | ⟨seat', m, t, hm', hends, hset⟩
  · exact ⟨list, data, hsame ▸ hm, hroster'⟩
  · by_cases hseat : seat' = seat
    · subst hseat
      cases hm.symm.trans hm'
      have harrived : list.roster ≠ .pending := by
        rcases hroster with hfailed | ⟨hgone, -⟩
        · rw [hfailed]
          nofun
        · rw [hgone]
          nofun
      obtain ⟨list', data', hmanager, hnext⟩ := hends.roster harrived
      have hlength : seat' < c.managers.length := (List.getElem?_eq_some_iff.mp hm).1
      refine ⟨list', data', by rw [hset, List.getElem?_set_self hlength, hmanager], ?_⟩
      rcases hnext with hsame | ⟨hgone, hstatus⟩
      · rwa [hsame]
      · exact .inr ⟨hgone, hstage.gone hstatus⟩
    · exact ⟨list, data, by rw [hset, List.getElem?_set_ne hseat, hm], hroster'⟩

theorem GaveUpAt.run (h : c.GaveUpAt seat server e) {ops : List (Operation σ ρ)}
    (hrun : c.run ops = .ok c₁) : c₁.GaveUpAt seat server e :=
  keeps_run (I := fun c => c.GaveUpAt seat server e) (fun hstage h => h.stage hstage) h hrun

/-- A connection that is gone presents no request. -/
theorem Presents.connected {call : CallId} {r : ValidRequest} {target : Option Handle}
    (hc : c.Orderly) (h : c.Presents op call r target c₀) : c.status ≠ .disconnected := by
  intro hgone
  cases h with
  | submitted hstatus => cases hstatus.symm.trans hgone
  | resumed hq =>
    rw [(hc.gone hgone).2, SortedMap.get?_empty] at hq
    cases hq

/-- Once a contact list has given up its roster, every request fails as those that waited. -/
theorem GaveUpAt.failsAt (h : c.GaveUpAt seat server e) (hc : c.Orderly)
    (hm : c.managers[seat]? = some (.contacts server list data)) :
    c.FailsAt seat server list (· = e) := by
  obtain ⟨list', data', hm', hroster⟩ := h
  cases hm.symm.trans hm'
  rcases hroster with hfailed | ⟨-, hgone⟩
  · refine failsAt_of_fails hm fun request hconsiders tables => ⟨e, rfl, ?_⟩
    exact ContactScene.offer_of_failed (s := ⟨list, data, tables, []⟩) hfailed hconsiders
  · intro op call r target c₀ hpresents
    exact absurd hgone (hpresents.connected hc)

/-- What happens when a contact list learns that its roster cannot be retrieved: whoever waits is
told so, one after the other, and then the roster is given up. -/
structure GivesUp (c : Connection σ ρ) (seat : Nat) (server : ContactServer ρ) (list : ContactList)
    (e : Error) (c₁ : Connection σ ρ) : Prop where
  nodup : list.queuedTokens.Nodup
  told : ∃ ps : List PendingRequest, list.queuedTokens.map c.ledger.inFlight.get? = ps.map some ∧
    c₁.log = c.log ++ ps.map fun p => .answered p.call (.failed e)
  resolved : ∀ token ∈ list.queuedTokens, c₁.ledger.Resolved token
  given : c₁.GaveUpAt seat server e

theorem givesUp_of_step (hc : c.Orderly)
    (hm : c.managers[seat]? = some (.contacts server list data))
    (hpending : list.roster = .pending) {out : StepOutcome σ ρ}
    (hstep : c.step (.contacts seat (.failed e)) = .ok out) :
    c.GivesUp seat server list e out.2 := by
  let s : ContactScene ρ := ⟨list, data, (c.naming (.failed e)).tables, []⟩
  have hperform : s.perform server (.failed e) = (.ok (), s.rosterFailed e) := rfl
  rw [step_contacts hm rfl hperform, Except.map_eq_ok] at hstep
  obtain ⟨c', hturn, rfl⟩ := hstep
  obtain ⟨hroster, -, heffects⟩ := ContactScene.rosterFailed_eq (s := s) hpending e
  have heffects : (s.rosterFailed e).effects =
      list.queuedTokens.map fun token => .report (.failed token e) := heffects
  have hreported : reportedTokens (s.rosterFailed e).effects = list.queuedTokens := by
    rw [heffects, reportedTokens_failed]
  obtain ⟨hledger, hmanagers, -⟩ := takeTurn_eq_ok hturn
  obtain ⟨hnodup, hflight⟩ := reported_of_takeTurn hturn
  simp only [Manager.close, hreported] at hledger hnodup hflight
  refine ⟨hnodup, ?_, fun token htoken => ⟨?_, ?_⟩, (s.rosterFailed e).list,
    (s.rosterFailed e).server, ?_, .inl hroster⟩
  · have hperformed : (list.queuedTokens.map fun token => Effect.report (.failed token e)).foldlM
        (perform seat) { c.naming (.failed e) with
          managers := c.managers.set seat
            (.contacts server (s.rosterFailed e).list (s.rosterFailed e).server)
          tables := (s.rosterFailed e).tables } = .ok c' := heffects ▸ hturn
    have htold := performAll_failed list.queuedTokens hperformed
    exact htold
  · show token.number ≤ c'.ledger.tokens
    rw [hledger]
    exact hc.issued.tokens token (hflight token htoken)
  · show c'.ledger.isPending token = false
    rw [hledger]
    exact Bool.eq_false_iff.mpr fun hp => (RequestLedger.isPending_without.mp hp).2 htoken
  · show c'.managers[seat]? = _
    rw [hmanagers]
    exact List.getElem?_set_self (List.getElem?_eq_some_iff.mp hm).1

/-- Such news is of no interest once it is known what became of the roster. -/
theorem step_failed_of_arrived (hm : c.managers[seat]? = some (.contacts server list data))
    (harrived : list.roster ≠ .pending) (e : Error) :
    c.step (.contacts seat (.failed e)) = .ok (.ok .nothing, c) := by
  have hperform : (ContactScene.mk list data (c.naming (.failed e)).tables []).perform server
      (.failed e) = (.ok (), ⟨list, data, c.tables, []⟩) := by
    simp only [ContactScene.perform, ContactScene.noticed, ContactScene.rosterFailed]
    rw [if_neg harrived]
    rfl
  rw [step_contacts hm rfl hperform]
  have hsame : c.managers.set seat (.contacts server list data) = c.managers := by
    obtain ⟨hlength, hseat⟩ := List.getElem?_eq_some_iff.mp hm
    rw [← hseat, List.set_getElem_self hlength]
  show Except.map _ (Except.ok { c.naming (.failed e) with
    managers := c.managers.set seat (.contacts server list data), tables := c.tables }) = _
  rw [hsame]
  rfl

/-- Whoever waited when the roster was given up is told so and nothing else, if no two requests come
by one call. -/
theorem GivesUp.answers (h : c.GivesUp seat server list e c₁) {token : RequestToken}
    {p : PendingRequest} (htoken : token ∈ list.queuedTokens)
    (hp : c.ledger.inFlight.get? token = some p) {c' : Connection σ ρ}
    (hkeeps : c₁.KeepsRequests c') (hone : c'.tally p.call ≤ 1) :
    c'.answersTo p.call = [.failed e] := by
  obtain ⟨ps, hps, htold⟩ := h.told
  obtain ⟨q, hq, hq'⟩ := RequestLedger.mem_of_claimed hps htoken
  cases hp.symm.trans hq'
  obtain ⟨events, hlater, -⟩ := hkeeps
  have hanswer : .answered p.call (.failed e) ∈ c'.log := by
    rw [hlater, htold]
    exact List.mem_append_left _ (List.mem_append_right _ (List.mem_map_of_mem hq))
  have hpos := List.count_pos_iff.mpr (mem_answeredCalls.mpr ⟨_, hanswer⟩)
  have hexact : c'.tally p.call = 1 := by
    rw [tally] at hone ⊢
    omega
  obtain ⟨a, ha⟩ := List.length_eq_one_iff.mp (length_answersTo_of_answered hanswer hexact)
  have hmem := mem_answersTo.mpr hanswer
  rw [ha, List.mem_singleton] at hmem
  rw [ha, hmem]

/-! ## Runs -/

theorem allBounded_run {backend : Backend} {config : Config} {tables : HandleTables}
    {plans : List (ManagerPlan σ ρ)} {ops : List (Operation σ ρ)}
    (hrun : (new backend config tables plans).run ops = .ok c) :
    AllManagers (Manager.OfLists fun _ list => list.Bounded config.rosterQueueLimit) c :=
  run_keepsManagers (Manager.bounded_lasting _)
    (fun plan _ path tables' => Manager.bounded_build config path tables' plan) hrun

/-- In every run, no more requests wait for the roster of a contact list than may, and none once it
is known that it will not come. A request that comes to the full queue is answered as not available
and leaves no trace. If the roster is on its way and the contact list learns that it cannot be
retrieved, all that wait are answered with the error that it is given, each of them once, and so is
every later request that comes to the check of the roster, however long the connection lasts; the
news can be told if the application's own managers have reported only on requests in their care.
Once it is known what became of the roster, such news changes nothing. -/
theorem run_bounds_queue (backend : Backend) (config : Config) (tables : HandleTables)
    {plans : List (ManagerPlan σ ρ)} {ops : List (Operation σ ρ)}
    (hrun : (new backend config tables plans).run ops = .ok c)
    (hm : c.managers[seat]? = some (.contacts server list data)) :
    list.Bounded config.rosterQueueLimit ∧
    (list.roster = .pending → config.rosterQueueLimit ≤ list.queuedRequests →
      c.FailsAt seat server list (·.kind = .notAvailable)) ∧
    (list.roster = .pending → ∀ e,
      (∀ own : Nat → σ → RequestToken → Prop,
        (∀ seat b state, plans[seat]? = some (.custom b state) →
          b.ReportsOwn (own seat) ∧ ∀ path token, ¬ own seat (state path) token) →
        HonestRun own (new backend config tables plans) ops →
        ∃ out, c.step (.contacts seat (.failed e)) = .ok out) ∧
      ∀ out, c.step (.contacts seat (.failed e)) = .ok out →
        c.GivesUp seat server list e out.2 ∧
        ∀ ops' c', out.2.run ops' = .ok c' →
          (∀ token ∈ list.queuedTokens, c'.ledger.Resolved token) ∧
          ((delivered (ops ++ ops')).Nodup → ∀ token ∈ list.queuedTokens, ∀ p,
            c.ledger.inFlight.get? token = some p → c'.answersTo p.call = [.failed e]) ∧
          ∃ list' data', c'.managers[seat]? = some (.contacts server list' data') ∧
            list'.queuedRequests = 0 ∧
            (list'.roster = .failed e ∨ list'.roster = .disconnected ∧ c'.status = .disconnected) ∧
            c'.FailsAt seat server list' (· = e)) ∧
    (list.roster ≠ .pending → ∀ e,
      c.step (.contacts seat (.failed e)) = .ok (.ok .nothing, c)) := by
  have hc := ((orderly_new backend config tables plans).run hrun).orderly
  have hbounded : list.Bounded config.rosterQueueLimit := allBounded_run hrun seat _ hm
  refine ⟨hbounded, fun hpending hfull => ?_, fun hpending e => ⟨?_, fun out hstep => ?_⟩,
    step_failed_of_arrived hm⟩
  · refine failsAt_of_fails hm fun request hconsiders tables => ?_
    exact ContactScene.offer_of_full (s := ⟨list, data, tables, []⟩) hpending
      (hbounded.configured ▸ hfull) hconsiders
  · -- Whoever waits is in the care of the contact list, so its report is accepted.
    intro own hplans hhonest
    have hcustody := (custody_new backend config tables hplans).run hhonest hrun
    obtain ⟨out, hperform, -⟩ := hcustody.performContacts seat (.failed e)
    exact ⟨out, hperform⟩
  · have hgives := givesUp_of_step hc hm hpending hstep
    refine ⟨hgives, fun ops' c' hrun' => ?_⟩
    have hwhole : (new backend config tables plans).run
        (ops ++ .contacts seat (.failed e) :: ops') = .ok c' :=
      run_append.mpr ⟨c, hrun, run_cons.mpr ⟨out, hstep, hrun'⟩⟩
    have hlater := (hc.step hstep).orderly.run hrun'
    obtain ⟨list', data', hm', hroster⟩ := hgives.given.run hrun'
    have hbounded' : list'.Bounded config.rosterQueueLimit := allBounded_run hwhole seat _ hm'
    refine ⟨fun token htoken => (hgives.resolved token htoken).of_advances hlater.advances,
      fun hdistinct token htoken p hp => ?_, list', data', hm', ?_, hroster,
      (hgives.given.run hrun').failsAt hlater.orderly hm'⟩
    · refine hgives.answers htoken hp hlater.requests ?_
      have hcalls : delivered (ops ++ .contacts seat (.failed e) :: ops') =
          delivered (ops ++ ops') := by
        rw [delivered, List.filterMap_append, List.filterMap_cons_none rfl, delivered,
          List.filterMap_append]
      rw [tally_of_run hwhole, hcalls]
      exact List.nodup_iff_count.mp hdistinct p.call
    · rcases hroster with hfailed | ⟨hgone, -⟩
      · exact hbounded'.failed e hfailed
      · exact hbounded'.disconnected hgone

/-- A connection with one contact list, at which one request may wait. -/
def oneMayWait : Connection Unit MemoryRoster :=
  .new ⟨"sample", "account", [], [], none, false, fun _ _ _ => none⟩
    { Config.standard with rosterQueueLimit := 1 }
    ⟨.onDemand .contact, none, some (.onDemand .list), some (.onDemand .group)⟩
    [.contacts (MemoryRoster.server ⟨true, true, false, true, .editable .native⟩ [] false) .empty]

/-- A client's request for the list of those whose presence the user sees. -/
def subscribing : ValidRequest :=
  ⟨.ensure, Property.contactListType, .list, .id "subscribe",
    .ofList [(Property.channelType, .text Property.contactListType),
      (Property.targetEntity, .nat 3), (Property.targetId, .text "subscribe")]⟩

/-- The roster could not be downloaded. -/
def lost : Error := ⟨.networkError, "roster download timed out"⟩

theorem validate_subscribing :
    subscribing.properties.validate subscribing.method = .ok subscribing := by
  have hany : (subscribing.properties.validate subscribing.method).toOption.any
      (· = subscribing) = true := by decide +kernel
  obtain ⟨r, hr, heq⟩ := Except.eq_ok_of_any hany
  rw [hr, of_decide_eq_true heq]

/-- Whether a request for the list comes to the check of the roster at the first contact list. -/
def subscribes (c : Connection Unit MemoryRoster) : Bool :=
  decide (c.status = .connected) && (c.findTarget subscribing).toOption.any fun found =>
    c.contactsWith fun _ s =>
      let request := (c.withTables found.2).offering subscribing found.1
      decide (0 ∈ c.hearers request ∧ request.Seeks .list ∧
        ListKind.ofName? (request.targetId.getD "") = some .subscribe ∧
        ListKind.subscribe.isSupported s.list.capabilities = true)

theorem of_subscribes {c : Connection Unit MemoryRoster} (h : c.subscribes = true) :
    ∃ target c₀ server list data, c.managers[0]? = some (.contacts server list data) ∧
      c.Presents (.request ⟨1⟩ subscribing.method subscribing.properties) ⟨1⟩ subscribing target
        c₀ ∧
      c.Reaches 0 server list (c₀.offering subscribing target) := by
  rw [subscribes, Bool.and_eq_true, decide_eq_true_iff] at h
  obtain ⟨hstatus, h⟩ := h
  obtain ⟨found, hfound, h⟩ := Except.eq_ok_of_any h
  obtain ⟨server, list, data, hm, h⟩ := of_contactsWith h
  obtain ⟨hhears, hseeks, hname, hsupported⟩ := of_decide_eq_true h
  exact ⟨found.1, c.withTables found.2, server, list, data, hm,
    .submitted hstatus validate_subscribing hfound, hhears,
    .list hseeks hname hsupported (by simp [subscribing, offering, ChannelRequest.new])⟩

/-- A request that waits, and one for which there is no room. -/
def twoRequests : List (Operation Unit MemoryRoster) :=
  [.setSelf (.id "user"), .changeStatus .connected .requested,
    .request ⟨2⟩ .ensure (.ofList [(Property.channelType, .text Property.contactListType),
      (Property.targetEntity, .nat 3), (Property.targetId, .text "publish")])]

/-- The second is answered at once, and the first when the roster is lost. -/
theorem twoRequests_failed :
    ∃ c out out', oneMayWait.run twoRequests = .ok c ∧
      c.step (.request ⟨1⟩ subscribing.method subscribing.properties) = .ok out ∧
      (∃ e, e.kind = .notAvailable ∧ out.2.log.getLast? = some (.answered ⟨1⟩ (.failed e))) ∧
      c.step (.contacts 0 (.failed lost)) = .ok out' ∧ out'.2.answersTo ⟨2⟩ = [.failed lost] := by
  have heval : (oneMayWait.run twoRequests).toOption.any (fun c => c.subscribes &&
      c.contactsWith (fun _ s => decide (s.list.roster = .pending ∧
        1 ≤ s.list.queuedRequests ∧ ⟨1⟩ ∈ s.list.queuedTokens)) &&
      decide ((c.ledger.inFlight.get? ⟨1⟩).map (·.call) = some ⟨2⟩) &&
      (c.step (.request ⟨1⟩ subscribing.method subscribing.properties)).toOption.any
        fun _ => true) = true := by decide +kernel
  obtain ⟨c, hrun, hc⟩ := Except.eq_ok_of_any heval
  simp only [Bool.and_eq_true, decide_eq_true_iff] at hc
  obtain ⟨⟨⟨hsubscribes, hwaits⟩, hcall⟩, hstep⟩ := hc
  obtain ⟨p, hp, hcall⟩ := Option.map_eq_some_iff.mp hcall
  obtain ⟨server, list, data, hm, hwaits⟩ := of_contactsWith hwaits
  obtain ⟨hpending, hfull, hqueued⟩ := of_decide_eq_true hwaits
  obtain ⟨target, c₀, server', list', data', hm', hpresents, hreaches⟩ := of_subscribes hsubscribes
  cases hm.symm.trans hm'
  obtain ⟨out, hout, -⟩ := Except.eq_ok_of_any hstep
  have hhonest : HonestRun (fun _ _ _ => False) oneMayWait twoRequests := by
    simp [twoRequests, HonestRun, Throughout, Honest]
  obtain ⟨-, hfails, hlost, -⟩ := run_bounds_queue _ _ _ hrun hm
  obtain ⟨e, he, hlast, -⟩ := hfails hpending hfull _ _ _ _ _ hpresents hreaches out hout
  obtain ⟨hsucceeds, hgives⟩ := hlost hpending lost
  obtain ⟨out', hstep'⟩ := hsucceeds (fun _ _ _ => False)
    (fun seat b state hplan => by cases seat <;> cases hplan) hhonest
  obtain ⟨-, hlater⟩ := hgives out' hstep'
  obtain ⟨-, hanswers, -⟩ := hlater [] out'.2 rfl
  have hcalls : (delivered (twoRequests ++ [])).Nodup := by decide
  exact ⟨c, out, out', hrun, hout, ⟨e, he, hlast⟩, hstep', hcall ▸ hanswers hcalls ⟨1⟩ hqueued p hp⟩

/-- Once the roster is there, requests are served whatever is said of it afterwards. -/
theorem lost_too_late :
    ∃ c server list data, (listing (.editable .native)).run
        [.setSelf (.id "user"), .changeStatus .connected .requested, .contacts 0 .received,
          .contacts 0 (.failed lost)] = .ok c ∧
      c.managers[0]? = some (.contacts server list data) ∧
      ¬ c.FailsAt 0 server list (· = lost) := by
  have heval : ((listing (.editable .native)).run
      [.setSelf (.id "user"), .changeStatus .connected .requested, .contacts 0 .received,
        .contacts 0 (.failed lost)]).toOption.any (fun c => c.subscribes &&
          (c.step (.request ⟨1⟩ subscribing.method subscribing.properties)).toOption.any fun out =>
            decide (out.2.log.getLast? ≠ some (.answered ⟨1⟩ (.failed lost)))) = true := by
    decide +kernel
  obtain ⟨c, hrun, hc⟩ := Except.eq_ok_of_any heval
  rw [Bool.and_eq_true] at hc
  obtain ⟨hsubscribes, hstep⟩ := hc
  obtain ⟨out, hstep, hlast⟩ := Except.eq_ok_of_any hstep
  obtain ⟨target, c₀, server, list, data, hm, hpresents, hreaches⟩ := of_subscribes hsubscribes
  refine ⟨c, server, list, data, hrun, hm, fun hfails => ?_⟩
  obtain ⟨e, rfl, hlog, -⟩ := hfails _ _ _ _ _ hpresents hreaches out hstep
  exact of_decide_eq_true hlast hlog

end Connection

end Telepathy

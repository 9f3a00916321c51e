import Telepathy.ContactList.MemoryServer
import Telepathy.Proofs.Connection.Managers
import Telepathy.Proofs.Connection.Queues
import Telepathy.Proofs.Connection.Replies

set_option autoImplicit false

/-!
# Requests are conserved

As long as an application's own managers report only on requests that they accepted, every
operation keeps all requests in flight in custody. So a contact list never breaks a promise, and a
request that it accepted waits in one of its queues until it is answered.
-/

namespace Telepathy.Connection

variable {σ ρ : Type} {c c₁ : Connection σ ρ} {K : Custody σ}

/-! ## Stages in which managers act -/

/-- What holds when an operation, or a stage of it, has ended with an outcome. -/
def KeepsCustody (K : Custody σ) {α : Type} (out : α × Connection σ ρ) : Prop :=
  InCustody K true none out.2

theorem InCustody.changeStatus (h : InCustody K true none c) (status : Status)
    (reason : StatusReason) : Fair K (KeepsCustody K) (c.changeStatus status reason) := by
  unfold Connection.changeStatus
  cases c.checkChange status with
  | error e => exact h
  | ok route =>
    cases route with
    | stay => exact h
    | direct => exact (h.enter status reason).bind fun c hc => hc
    | viaConnecting =>
      exact (h.enter .connecting reason).bind fun c hc =>
        (hc.enter .connected reason).bind fun c hc => hc

theorem InCustody.connect (h : InCustody K true none c) : Fair K (KeepsCustody K) c.connect := by
  unfold Connection.connect
  by_cases hstatus : c.status ≠ .new
  · rw [if_pos hstatus]
    exact h
  · rw [if_neg hstatus]
    have hhook : InCustody K true none (c.record [.hook .startConnecting]) :=
      h.frame (.record c (by simp))
    cases hfailure : (c.record [.hook .startConnecting]).backend.startFailure with
    | some e =>
      simp only [hfailure]
      exact (hhook.changeStatus _ _).bind fun out hout => hout
    | none =>
      simp only [hfailure]
      exact (hhook.changeStatus _ _).bind fun out hout => hout

theorem InCustody.disconnect (h : InCustody K true none c) (call : CallId) :
    Fair K (InCustody K true none) (c.disconnect call) := by
  unfold Connection.disconnect
  by_cases hover : c.shutDown = true
  · rw [if_pos hover]
    exact h.frame (.record c (by simp))
  · rw [if_neg hover]
    have hwaits : InCustody K true none
        { c with disconnectCalls := c.disconnectCalls ++ [call] } := h.frame ⟨rfl, rfl, rfl, rfl⟩
    by_cases hgone : c.status = .disconnected
    · rw [if_pos hgone]
      exact hwaits
    · rw [if_neg hgone]
      exact (hwaits.changeStatus _ _).bind fun out hout => hout

theorem InCustody.resumeLookup (h : InCustody K true none c) (ticket : LookupTicket)
    (target : Handle) : Fair K (KeepsCustody K) (c.resumeLookup ticket target) := by
  unfold Connection.resumeLookup
  cases hunpark : c.ledger.unpark? ticket with
  | none => exact h
  | some taken =>
    obtain ⟨p, l⟩ := taken
    obtain ⟨-, rfl⟩ := RequestLedger.unpark?_eq_some_iff.mp hunpark
    have htaken : InCustody K true none
        { c with ledger := { c.ledger with parked := c.ledger.parked.erase ticket } } :=
      h.frame ⟨rfl, rfl, rfl, rfl⟩
    exact (htaken.present p.call p.request (some target)).bind fun c hc => hc

theorem InCustody.completeLookup (h : InCustody K true none c) (ticket : LookupTicket)
    (entity : EntityType) (name : ContactName) :
    Fair K (KeepsCustody K) (c.completeLookup ticket entity name) := by
  unfold Connection.completeLookup
  cases hget : c.tables.get entity with
  | error e => exact h
  | ok t =>
    have htables : InCustody K true none
        { c with tables := c.tables.set entity (t.resolve name).2 } :=
      h.frame ⟨rfl, rfl, rfl, rfl⟩
    cases hfound : (t.resolve name).1 with
    | error e =>
      simp only [hfound]
      exact htables
    | ok target =>
      simp only [hfound]
      exact (htables.resumeLookup ticket target).map fun out hout => hout

theorem InCustody.submit (h : InCustody K true none c) (call : CallId) (r : ValidRequest) :
    Fair K (InCustody K true none) (c.submit call r) := by
  unfold Connection.submit
  cases c.findTarget r with
  | ok found =>
    obtain ⟨target, tables⟩ := found
    have htables : InCustody K true none { c with tables } := h.frame ⟨rfl, rfl, rfl, rfl⟩
    exact htables.present call r target
  | error e =>
    cases e with
    | lookupRequired entity id => exact h.frame (undisturbed_beginLookup c call r entity id)
    | _ => exact h.frame (.record c (by simp))

theorem InCustody.request (h : InCustody K true none c) (call : CallId) (method : RequestMethod)
    (properties : PropertyMap) :
    Fair K (InCustody K true none) (c.request call method properties) := by
  unfold Connection.request
  by_cases hconnected : c.status = .connected
  · rw [if_pos hconnected]
    cases properties.validate method with
    | error m => exact h.frame (.record c (by simp))
    | ok r => exact h.submit call r
  · rw [if_neg hconnected]
    exact h.frame (.record c (by simp))

/-! ## Operations on managers -/

theorem InCustody.changeManager (h : InCustody K true none c) {seat : Nat} {f : σ → σ}
    (hf : ∀ state token, K.own seat (f state) token → K.own seat state token) :
    Fair K (KeepsCustody K) (c.changeManager seat f) := by
  unfold Connection.changeManager
  cases hm : c.managers[seat]? with
  | none => exact h
  | some m =>
    cases m with
    | contacts server list data => exact h
    | custom b state =>
      refine (fair_takeTurn (h.isCustom hm) fun c₁ hturn => ?_).map fun c₁ hc₁ => hc₁
      exact h.customTurn hm hturn (.inl rfl) (fun token ht => absurd ht List.not_mem_nil)
        fun token ht => .inl (hf state token ht)

/-- A call to a contact list in which all tokens are kept ends well. -/
theorem InCustody.closeCall (h : InCustody K true none c) {seat : Nat} {server : ContactServer ρ}
    {list : ContactList} {data : ρ} (hm : c.managers[seat]? = some (.contacts server list data))
    {tables : HandleTables} {s : ContactScene ρ}
    (hs : (ContactScene.mk list data tables []).KeepsTokens s) :
    ∃ c₁, c.takeTurn seat (Manager.close server s) = .ok c₁ ∧ InCustody K true none c₁ := by
  have htally : ∀ token, s.list.queuedTokens.count token + (reportedTokens s.effects).count token =
      list.queuedTokens.count token + ([] : List RequestToken).count token := hs.tally
  have hreused : reusedTokens s.effects = [] := hs.reused
  exact h.contactTurn [] hm htally (by simp [hreused]) (.inl ⟨rfl, rfl⟩)

/-- Whatever the data of a contact server become, the contact list keeps its queues. -/
theorem InCustody.changeServer (h : InCustody K true none c) (seat : Nat)
    (names : List ContactName) (f : SortedSet Handle → ρ → ρ) :
    ∃ out, c.changeServer seat names f = .ok out ∧ KeepsCustody K out := by
  unfold Connection.changeServer
  cases hlist : c.contactListAt seat with
  | none => exact ⟨_, rfl, h⟩
  | some m =>
    obtain ⟨hm, hkind⟩ := Option.filter_eq_some_iff.mp hlist
    have htables : InCustody K true none { c with tables :=
        { c.tables with contact := (c.tables.contact.resolveSet names).2 } } :=
      h.frame ⟨rfl, rfl, rfl, rfl⟩
    cases hfound : (c.tables.contact.resolveSet names).1 with
    | error e =>
      simp only [hfound]
      exact ⟨_, rfl, htables⟩
    | ok contacts =>
      simp only [hfound]
      cases m with
      | custom b state => cases hkind
      | contacts server list data =>
        have hkept : (ContactScene.mk list data c.tables []).KeepsTokens
            ⟨list, f contacts data,
              ({ c.tables with contact := (c.tables.contact.resolveSet names).2 } :
                HandleTables).exchangeContacts (server.holds (f contacts data))
                (server.holds data), []⟩ := ⟨fun _ => rfl, rfl⟩
        obtain ⟨c₁, hturn, hc₁⟩ := htables.closeCall hm hkept
        exact ⟨_, Except.map_eq_ok.mpr ⟨c₁, hturn, rfl⟩, hc₁⟩

/-- Nothing that happens to a contact list makes it break a promise. -/
theorem InCustody.performContacts (h : InCustody K true none c) (seat : Nat)
    (op : ContactOperation (List ContactName)) :
    ∃ out, c.performContacts seat op = .ok out ∧ KeepsCustody K out := by
  unfold Connection.performContacts
  cases hlist : c.contactListAt seat with
  | none => exact ⟨_, rfl, h⟩
  | some m =>
    obtain ⟨hm, hkind⟩ := Option.filter_eq_some_iff.mp hlist
    have htables : InCustody K true none { c with tables :=
        { c.tables with contact := (op.resolve c.tables.contact).2 } } :=
      h.frame ⟨rfl, rfl, rfl, rfl⟩
    cases hfound : (op.resolve c.tables.contact).1 with
    | error e =>
      simp only [hfound]
      exact ⟨_, rfl, htables⟩
    | ok op' =>
      simp only [hfound]
      cases m with
      | custom b state => cases hkind
      | contacts server list data =>
        obtain ⟨c₁, hturn, hc₁⟩ := htables.closeCall hm
          (ContactScene.keepsTokens_perform server
            ⟨list, data, { c.tables with contact := (op.resolve c.tables.contact).2 }, []⟩ op')
        exact ⟨_, Except.map_eq_ok.mpr ⟨c₁, hturn, rfl⟩, hc₁⟩

/-! ## Operations -/

/-- An operation in which the application's own managers report only on requests in their care, and
get no request from nowhere. -/
def Honest (own : Nat → σ → RequestToken → Prop) (c : Connection σ ρ) : Operation σ ρ → Prop
  | .report r => ∀ token ∈ r.tokens, ∃ seat b state,
      c.keeper? token = some seat ∧ c.managers[seat]? = some (.custom b state)
  | .changeManager seat f => ∀ state token, own seat (f state) token → own seat state token
  | _ => True

/-- A run of such operations. -/
def HonestRun (own : Nat → σ → RequestToken → Prop) :
    Connection σ ρ → List (Operation σ ρ) → Prop :=
  Throughout (Honest own)

/-- A report on requests in the care of the application's own managers is no matter of the contact
lists. -/
theorem InCustody.settle (h : InCustody K true none c) {r : Report}
    (hr : Honest K.own c (.report r : Operation σ ρ)) (hsettle : c.settle r = .ok c₁) :
    InCustody K true none c₁ := by
  obtain ⟨hledger, hmanagers, hoffers⟩ := settle_eq_ok hsettle
  have hkeeper := keeper?_of_offers hoffers
  have hpending : ∀ token, c₁.ledger.isPending token = true ↔
      c.ledger.isPending token = true ∧ token ∉ r.tokens := by
    intro token
    rw [hledger, RequestLedger.isPending_without]
  refine ⟨fun seat m hm => ?_, hmanagers ▸ h.custom, ?_, fun token ht => ?_, ?_,
    fun token ht => (hkeeper token).trans (h.stable token ht)⟩
  · rw [hmanagers] at hm
    have hmine := h.managers seat m hm
    cases m with
    | custom b state =>
      refine ⟨hmine.1, fun token ht => ?_⟩
      rw [hkeeper]
      exact hmine.2 token ht
    | contacts server list data =>
      refine hmine.transfer (fun token hk ha => ⟨(hkeeper token).trans hk, ha⟩) fun token => ?_
      have hother : c.keeper? token = some seat → token ∉ r.tokens := by
        intro hk ht
        obtain ⟨seat', b, state, hk', hm'⟩ := hr token ht
        rw [hk, Option.some.injEq] at hk'
        rw [← hk', hm] at hm'
        cases hm'
      rw [Waits, Waits, hkeeper, hpending]
      constructor
      · rintro ⟨⟨hp, -⟩, hk, ha⟩
        exact ⟨hp, hk, ha⟩
      · rintro ⟨hp, hk, ha⟩
        exact ⟨⟨hp, hother hk⟩, hk, ha⟩
  · rw [hoffers, hledger]
    exact h.offered
  · rw [hkeeper]
    exact h.kept token ((hpending token).mp ht).1
  · rw [hledger]
    exact h.later

/-- Every operation but a report keeps all requests in custody, or ends because an application's own
manager broke a promise. -/
theorem InCustody.fair_step (h : InCustody K true none c) {op : Operation σ ρ}
    (hop : Honest K.own c op) (hreport : ∀ r, op ≠ .report r) :
    Fair K (KeepsCustody K) (c.step op) := by
  have hok : ∀ {x : Except Crash (StepOutcome σ ρ)},
      (∃ out, x = .ok out ∧ KeepsCustody K out) → Fair K (KeepsCustody K) x := by
    rintro x ⟨out, rfl, hout⟩
    exact hout
  cases op with
  | register => exact h.frame (undisturbed_register c)
  | connect => exact h.connect.map fun out hout => hout
  | disconnect call => exact (h.disconnect call).map fun c hc => hc
  | finishShutdown => exact h.frame (undisturbed_finishShutdown c)
  | changeStatus status reason => exact (h.changeStatus status reason).map fun out hout => hout
  | setSelf contact => exact h.frame (undisturbed_nameSelf c contact)
  | request call method properties =>
    exact (h.request call method properties).map fun c hc => hc
  | lookupFound ticket entity target => exact h.completeLookup ticket entity target
  | lookupFailed ticket e => exact h.frame (undisturbed_failLookup c ticket e)
  | cancelLookup ticket => exact h.frame (undisturbed_failLookup c ticket _)
  | addInterest client tokens => exact h.frame (undisturbed_addInterest c client tokens)
  | removeInterest client tokens => exact h.frame (undisturbed_applyInterest c client _)
  | clientVanished client => exact h.frame (undisturbed_applyInterest c client _)
  | intern entity id keep => exact h.frame (undisturbed_internKept c entity id keep)
  | drop name => exact h.frame ⟨rfl, rfl, rfl, rfl⟩
  | collect => exact h.frame ⟨rfl, rfl, rfl, rfl⟩
  | report r => exact absurd rfl (hreport r)
  | loseName => exact h.frame (undisturbed_loseName c)
  | losePath => exact h.frame (undisturbed_losePath c)
  | changeManager seat f => exact h.changeManager hop
  | changeServer seat names f => exact hok (h.changeServer seat names f)
  | contacts seat op => exact hok (h.performContacts seat op)

theorem InCustody.step (h : InCustody K true none c) {op : Operation σ ρ}
    (hop : Honest K.own c op) {out : StepOutcome σ ρ} (hstep : c.step op = .ok out) :
    InCustody K true none out.2 := by
  by_cases hreport : ∃ r, op = .report r
  · obtain ⟨r, rfl⟩ := hreport
    obtain ⟨c', hsettle, rfl⟩ := Except.map_eq_ok.mp hstep
    exact h.settle hop hsettle
  · have hfair := h.fair_step hop fun r heq => hreport ⟨r, heq⟩
    rw [hstep] at hfair
    exact hfair

/-- A promise that is broken is one of an application's own manager. -/
theorem InCustody.crash_step (h : InCustody K true none c) {op : Operation σ ρ}
    (hop : Honest K.own c op) {crash : Crash} (hstep : c.step op = .error crash) :
    (∃ r, op = .report r) ∨
      ∃ seat b state, crash.seat = some seat ∧ c.managers[seat]? = some (.custom b state) := by
  by_cases hreport : ∃ r, op = .report r
  · exact .inl hreport
  · have hfair := h.fair_step hop fun r heq => hreport ⟨r, heq⟩
    rw [hstep] at hfair
    obtain ⟨seat, hseat, hcustom⟩ := hfair
    rw [← h.custom, List.getElem?_map, Option.map_eq_some_iff] at hcustom
    obtain ⟨m, hm, hkind⟩ := hcustom
    cases m with
    | custom b state => exact .inr ⟨seat, b, state, hseat, hm⟩
    | contacts server list data => cases hkind

theorem InCustody.run (h : InCustody K true none c) {ops : List (Operation σ ρ)}
    (hops : HonestRun K.own c ops) (hrun : c.run ops = .ok c₁) : InCustody K true none c₁ :=
  hops.keeps (I := InCustody K true none) (fun h hop hstep => h.step hop hstep) h hrun

/-! ## New connections -/

/-- What is to be kept from now on. -/
def custodyFrom (own : Nat → σ → RequestToken → Prop) (c : Connection σ ρ) : Custody σ where
  own := own
  custom := c.managers.map Manager.isCustom
  issued := c.ledger.tokens
  keeper := c.keeper?

/-- Who keeps what is fixed for the requests of the past. -/
theorem InCustody.renew (h : InCustody K true none c) :
    InCustody (custodyFrom K.own c) true none c where
  managers seat m hm := by
    have hmine := h.managers seat m hm
    cases m with
    | custom b state => exact hmine
    | contacts server list data => exact hmine
  custom := rfl
  offered := h.offered
  kept := h.kept
  later := Nat.le_refl _
  stable _ _ := rfl

/-- Nobody waits for a manager that was just built. -/
theorem custody_new {own : Nat → σ → RequestToken → Prop} (backend : Backend) (config : Config)
    (tables : HandleTables) {plans : List (ManagerPlan σ ρ)}
    (hplans : ∀ seat b state, plans[seat]? = some (.custom b state) →
      b.ReportsOwn (own seat) ∧ ∀ path token, ¬ own seat (state path) token) :
    InCustody (custodyFrom own (Connection.new backend config tables plans)) true none
      (Connection.new backend config tables plans) where
  managers seat m hm := by
    obtain ⟨plan, tables', hplan, rfl⟩ := build_of_buildAll hm
    cases plan with
    | custom b state =>
      obtain ⟨hb, hnothing⟩ := hplans seat b state hplan
      exact ⟨hb, fun token ht => absurd ht (hnothing _ token)⟩
    | contacts server data =>
      intro _ token
      let names := Names.new config.connectionManager backend.protocol backend.account
      have hopened := (ContactScene.keepsTokens_openLists
        ⟨ManagerPlan.emptyList config names.path server.capabilities, data,
          tables'.exchangeContacts (server.holds data) [], []⟩).tally token
      rw [if_neg fun hw => Bool.false_ne_true hw.1]
      exact Nat.eq_zero_of_add_eq_zero_right hopened
  custom := rfl
  offered o ho := absurd ho List.not_mem_nil
  kept token ht := absurd ht Bool.false_ne_true
  later := Nat.le_refl _
  stable _ _ := rfl

/-! ## Contact lists on their own -/

theorem InCustody.run_isOk (h : InCustody K true none c) (hown : ∀ seat state token,
    ¬ K.own seat state token) (hcustom : true ∉ K.custom) {ops : List (Operation σ ρ)}
    (hreports : ∀ r, .report r ∉ ops) : ∃ c₁, c.run ops = .ok c₁ := by
  induction ops generalizing c with
  | nil => exact ⟨c, rfl⟩
  | cons op ops ih =>
    have hhonest : Honest K.own c op := by
      cases op with
      | report r => exact absurd List.mem_cons_self (hreports r)
      | changeManager seat f => exact fun state token h => absurd h (hown seat _ token)
      | _ => trivial
    have hfair := h.fair_step hhonest fun r heq => hreports r (heq ▸ List.mem_cons_self)
    cases hstep : c.step op with
    | error crash =>
      rw [hstep] at hfair
      obtain ⟨seat, -, hseat⟩ := hfair
      exact absurd (List.mem_of_getElem? hseat) hcustom
    | ok out =>
      obtain ⟨c₁, hrest⟩ := ih (h.step hhonest hstep) fun r hr =>
        hreports r (List.mem_cons_of_mem _ hr)
      exact ⟨c₁, run_cons.mpr ⟨out, hstep, hrest⟩⟩

/-- Without managers of the application's own and without reports from elsewhere, every run comes to
its end. -/
theorem run_isOk (backend : Backend) (config : Config) (tables : HandleTables)
    {plans : List (ManagerPlan σ ρ)} (hplans : ∀ b state, ManagerPlan.custom b state ∉ plans)
    {ops : List (Operation σ ρ)} (hreports : ∀ r, .report r ∉ ops) :
    ∃ c, (new backend config tables plans).run ops = .ok c := by
  have hnone : ∀ (seat : Nat) b state, plans[seat]? ≠ some (ManagerPlan.custom b state) :=
    fun seat b state hplan => hplans b state (List.mem_of_getElem? hplan)
  let own (_ : Nat) (_ : σ) (_ : RequestToken) : Prop := False
  have hc : InCustody (custodyFrom own (new backend config tables plans)) true none _ :=
    custody_new backend config tables fun seat b state hplan => absurd hplan (hnone seat b state)
  refine hc.run_isOk (fun _ _ _ h => h) (fun hmem => ?_) hreports
  obtain ⟨m, hm, hkind⟩ := List.mem_map.mp hmem
  obtain ⟨seat, hseat⟩ := List.getElem?_of_mem hm
  obtain ⟨plan, tables', hplan, rfl⟩ := build_of_buildAll hseat
  cases plan with
  | custom b state => exact hnone seat b state hplan
  | contacts server data => cases hkind

/-! ## Conservation -/

/-- In every run in which the application's own managers report only on requests that they accepted,
the queues of a contact list hold exactly the requests that it accepted and that are still in
flight, each for one channel. No contact list breaks a promise, and what it accepted stays in its
queues until it is answered. -/
theorem run_conserves_requests (own : Nat → σ → RequestToken → Prop) (backend : Backend)
    (config : Config) (tables : HandleTables) {plans : List (ManagerPlan σ ρ)}
    (hplans : ∀ seat b state, plans[seat]? = some (.custom b state) →
      b.ReportsOwn (own seat) ∧ ∀ path token, ¬ own seat (state path) token)
    {ops ops' : List (Operation σ ρ)} {c c' : Connection σ ρ}
    (h : (Connection.new backend config tables plans).run ops = .ok c) (h' : c.run ops' = .ok c')
    (hhonest : HonestRun own (Connection.new backend config tables plans) (ops ++ ops')) :
    (∀ token, c.ledger.isPending token = true → ∃ seat, c.keeper? token = some seat) ∧
    (∀ seat server list data, c.managers[seat]? = some (.contacts server list data) →
      list.queuedTokens.Nodup ∧
        (∀ token ∈ list.queuedTokens,
          c.ledger.isPending token = true ∧ c.keeper? token = some seat) ∧
        ∀ token, c.ledger.isPending token = true → c.keeper? token = some seat →
          ∃ t, list.QueuedAt t token ∧ ∀ t', list.QueuedAt t' token → t' = t) ∧
    (∀ op crash, Honest own c op → c.step op = .error crash →
      (∃ r, op = .report r) ∨
        ∃ seat b state, crash.seat = some seat ∧ c.managers[seat]? = some (.custom b state)) ∧
    (∀ seat op, ∃ out, c.step (.contacts seat op) = .ok out) ∧
    ∃ events, c'.log = c.log ++ events ∧
      ∀ token p seat server list data, c.ledger.inFlight.get? token = some p →
        c.keeper? token = some seat → c.managers[seat]? = some (.contacts server list data) →
          RequestAnswered events p.call ∨
            c'.ledger.inFlight.get? token = some p ∧
              ∃ server' list' data', c'.managers[seat]? = some (.contacts server' list' data') ∧
                token ∈ list'.queuedTokens := by
  obtain ⟨hfirst, hsecond⟩ := hhonest.split h
  have hc := ((custody_new backend config tables hplans).run hfirst h).renew
  have hc' := hc.run hsecond h'
  refine ⟨fun token ht => (hc.kept token ht).resolve_left (Option.some_ne_none token).symm,
    fun seat server list data hm => ?_, fun op crash hop hstep => hc.crash_step hop hstep,
    fun seat op => (hc.performContacts seat op).imp fun out hout => hout.1, ?_⟩
  · have hcount := hc.managers seat _ hm rfl
    have hqueued : ∀ token, token ∈ list.queuedTokens ↔ c.Waits none seat token := by
      intro token
      rw [← List.count_pos_iff, hcount]
      by_cases hw : c.Waits none seat token <;> simp [hw]
    have hnodup : list.queuedTokens.Nodup := List.nodup_iff_count.mpr fun token => by
      rw [hcount]
      split <;> omega
    refine ⟨hnodup, fun token ht => ?_, fun token hp hk => ?_⟩
    · obtain ⟨hp, hk, -⟩ := (hqueued token).mp ht
      exact ⟨hp, hk⟩
    · have ht := (hqueued token).mpr ⟨hp, hk, (Option.some_ne_none token).symm⟩
      obtain ⟨t, ht⟩ := ContactList.mem_queuedTokens.mp ht
      exact ⟨t, ht, fun t' ht' => ht.unique ht' hnodup⟩
  · have horderly := ((orderly_new backend config tables plans).run h).orderly
    obtain ⟨events, hlog, hkept⟩ := (horderly.run h').requests
    refine ⟨events, hlog, fun token p seat server list data hp hk hm => ?_⟩
    refine (hkept token p hp).symm.imp_right fun hp' => ⟨hp', ?_⟩
    have hpending := RequestLedger.isPending_iff.mpr ⟨p, hp⟩
    have hk' : c'.keeper? token = some seat :=
      (hc'.stable token (horderly.issued.tokens token hpending)).trans hk
    have hkinds : c'.managers.map Manager.isCustom = c.managers.map Manager.isCustom := hc'.custom
    have hkind : (c'.managers.map Manager.isCustom)[seat]? = some false := by
      rw [hkinds, List.getElem?_map, hm]
      rfl
    rw [List.getElem?_map, Option.map_eq_some_iff] at hkind
    obtain ⟨m, hm', hcontacts⟩ := hkind
    cases m with
    | custom b state => cases hcontacts
    | contacts server' list' data' =>
      refine ⟨server', list', data', hm', ?_⟩
      have hcount := hc'.managers seat _ hm' rfl token
      rw [if_pos ⟨RequestLedger.isPending_iff.mpr ⟨p, hp'⟩, hk', (Option.some_ne_none token).symm⟩]
        at hcount
      exact List.count_pos_iff.mp (by omega)

/-- A manager that keeps every request for a text channel. -/
def textKeeper : Behaviour (List RequestToken) where
  channels _ := []
  classes _ := []
  create := keep
  ensure := keep
where
  /-- The answer to a request. -/
  keep (state : List RequestToken) (r : ChannelRequest) : Response (List RequestToken) :=
    if r.channelType = "text" then ⟨.accepted, r.token :: state, []⟩ else ⟨.declined, state, []⟩

theorem textKeeper_answer (state : List RequestToken) (r : ChannelRequest) :
    textKeeper.answer state r = textKeeper.keep state r := by
  unfold Behaviour.answer
  cases r.method <;> rfl

theorem textKeeper_reportsOwn : textKeeper.ReportsOwn fun state token => token ∈ state where
  answer_reports state r token ht := by
    rw [textKeeper_answer, textKeeper.keep] at ht
    split at ht <;> cases ht
  answer_owns state r token ht := by
    rw [textKeeper_answer, textKeeper.keep] at ht ⊢
    by_cases h : r.channelType = "text"
    · rw [if_pos h] at ht ⊢
      exact (List.mem_cons.mp ht).symm.imp_right fun heq => ⟨heq, rfl⟩
    · rw [if_neg h] at ht
      exact .inl ht
  status_reports state status token ht := absurd ht List.not_mem_nil
  status_owns state status token ht := ht

/-- The plans for such a manager and a contact list. -/
def textAndContacts : List (ManagerPlan (List RequestToken) MemoryRoster) :=
  [.custom textKeeper fun _ => [],
    .contacts (MemoryRoster.server ⟨true, true, false, true, .editable .native⟩ [] false) .empty]

theorem textAndContacts_reportsOwn (seat : Nat) (b : Behaviour (List RequestToken))
    (state : ObjectPath → List RequestToken)
    (h : textAndContacts[seat]? = some (.custom b state)) :
    (b.ReportsOwn fun state token => token ∈ state) ∧ ∀ path token, token ∉ state path := by
  cases seat with
  | zero =>
    cases h
    exact ⟨textKeeper_reportsOwn, fun _ _ => List.not_mem_nil⟩
  | succ seat => cases seat <;> cases h

/-- A connection with these managers. -/
def chatting : Connection (List RequestToken) MemoryRoster :=
  .new ⟨"sample", "account", [], [], none, false, fun _ _ _ => none⟩ .standard
    ⟨.onDemand .contact, none, some (.onDemand .list), some (.onDemand .group)⟩ textAndContacts

/-- A list, a text channel and a group are requested before the roster arrives. -/
def earlyRequests : List (Operation (List RequestToken) MemoryRoster) :=
  [.setSelf (.id "user"), .changeStatus .connected .requested,
    .request ⟨1⟩ .ensure (.ofList [(Property.channelType, .text Property.contactListType),
      (Property.targetEntity, .nat 3), (Property.targetId, .text "subscribe")]),
    .request ⟨2⟩ .create (.ofList [(Property.channelType, .text "text")]),
    .request ⟨3⟩ .create (.ofList [(Property.channelType, .text Property.contactListType),
      (Property.targetEntity, .nat 4), (Property.targetId, .text "friends")])]

/-- Those that the contact list accepted are answered once the roster arrives. -/
theorem earlyRequests_conserved :
    ∃ c c' events, chatting.run earlyRequests = .ok c ∧
      c.run [.contacts 1 .received] = .ok c' ∧ c'.log = c.log ++ events ∧
      ∀ number ∈ [1, 3], RequestAnswered events ⟨number⟩ := by
  have heval : ((chatting.run earlyRequests).toOption.any fun c =>
      (c.managers[1]?.any fun m => !m.isCustom) &&
        (c.run [.contacts 1 .received]).toOption.any fun c' =>
          [1, 3].all fun number =>
            ((c.ledger.inFlight.get? ⟨number⟩).any fun p => p.call = ⟨number⟩) &&
              c.keeper? ⟨number⟩ = some 1 && !c'.ledger.isPending ⟨number⟩) = true := by
    decide +kernel
  obtain ⟨c, hrun, hc⟩ := Except.eq_ok_of_any heval
  rw [Bool.and_eq_true] at hc
  obtain ⟨hseat, hc⟩ := hc
  obtain ⟨c', hrest, hc'⟩ := Except.eq_ok_of_any hc
  obtain ⟨m, hm, hkind⟩ := (Option.any_eq_true _ _).mp hseat
  have hplain : HonestRun (fun _ state token => token ∈ state) chatting
      (earlyRequests ++ [.contacts 1 .received]) := by
    simp [earlyRequests, HonestRun, Throughout, Honest]
  obtain ⟨-, -, -, -, events, hlog, hanswered⟩ :=
    run_conserves_requests _ _ _ _ textAndContacts_reportsOwn hrun hrest hplain
  refine ⟨c, c', events, hrun, hrest, hlog, fun number hnumber => ?_⟩
  have hfacts := List.all_eq_true.mp hc' number hnumber
  rw [Bool.and_eq_true, Bool.and_eq_true, decide_eq_true_iff] at hfacts
  obtain ⟨⟨hflight, hkeeper⟩, hdone⟩ := hfacts
  obtain ⟨p, hp, hcall⟩ := (Option.any_eq_true _ _).mp hflight
  cases m with
  | custom b state => cases hkind
  | contacts server list data =>
    obtain hmine | ⟨hp', -⟩ := hanswered ⟨number⟩ p 1 server list data hp hkeeper hm
    · rwa [of_decide_eq_true hcall] at hmine
    · rw [RequestLedger.isPending_iff.mpr ⟨p, hp'⟩] at hdone
      cases hdone

end Telepathy.Connection

import Telepathy.Connection.Operation
import Telepathy.Proofs.Connection.Accounts

set_option autoImplicit false

/-!
# Every call is answered once

No operation drops a call or answers it again: each adds the call it delivers, if any, to the
accounts. So after a run every delivered call is accounted for once, it waits in one of three places
or it was answered. A connection whose shutdown is over has nobody waiting, and all are answered.
-/

namespace Telepathy

variable {σ ρ : Type}

/-- The call that an operation delivers. -/
def Operation.call? : Operation σ ρ → Option CallId
  | disconnect call | request call _ _ => some call
  | _ => none

/-- The calls that are delivered in a run. -/
def delivered (ops : List (Operation σ ρ)) : List CallId := ops.filterMap Operation.call?

namespace RequestLedger

/-- A request that was put in flight once, and is no longer. -/
def Resolved (l : RequestLedger) (token : RequestToken) : Prop :=
  token.number ≤ l.tokens ∧ l.isPending token = false

/-- A lookup that was begun once, and is over. -/
def LookedUp (l : RequestLedger) (ticket : LookupTicket) : Prop :=
  ticket.number ≤ l.tickets ∧ l.parked.contains ticket = false

variable {l l' : RequestLedger}

theorem Resolved.of_advances {token : RequestToken} (h : l.Resolved token) (ha : l.Advances l') :
    l'.Resolved token := by
  refine ⟨Nat.le_trans h.1 ha.tokens, Bool.eq_false_iff.mpr fun hp => ?_⟩
  obtain hp | ⟨hlt, -⟩ := ha.inFlight token hp
  · simp [h.2] at hp
  · exact absurd h.1 (Nat.not_le_of_lt hlt)

theorem LookedUp.of_advances {ticket : LookupTicket} (h : l.LookedUp ticket)
    (ha : l.Advances l') : l'.LookedUp ticket := by
  refine ⟨Nat.le_trans h.1 ha.tickets, Bool.eq_false_iff.mpr fun hp => ?_⟩
  obtain hp | ⟨hlt, -⟩ := ha.parked ticket hp
  · simp [h.2] at hp
  · exact absurd h.1 (Nat.not_le_of_lt hlt)

/-- A request in flight stays there or is resolved. -/
theorem Issued.pending_or_resolved (hl : l.Issued) (ha : l.Advances l') {token : RequestToken}
    (h : l.isPending token = true) : l'.isPending token = true ∨ l'.Resolved token := by
  cases hp : l'.isPending token with
  | true => exact .inl rfl
  | false => exact .inr ⟨Nat.le_trans (hl.tokens token h) ha.tokens, hp⟩

/-- A parked request stays there or its lookup is over. -/
theorem Issued.parked_or_lookedUp (hl : l.Issued) (ha : l.Advances l') {ticket : LookupTicket}
    (h : l.parked.contains ticket = true) :
    l'.parked.contains ticket = true ∨ l'.LookedUp ticket := by
  cases hp : l'.parked.contains ticket with
  | true => exact .inl rfl
  | false => exact .inr ⟨Nat.le_trans (hl.tickets ticket h) ha.tickets, hp⟩

end RequestLedger

namespace Connection

variable {c c₁ c₂ : Connection σ ρ}

/-! ## Operations -/

theorem Orderly.applyInterest (hc : c.Orderly) (client : ClientName)
    (change : InterestTable × InterestUpdate) : c.Receives [] (c.applyInterest client change) := by
  have hwatch : c.Receives [] ({ c with interests := change.1 }.watchAs client change.2.watch) := by
    have hset : c.Receives [] { c with interests := change.1 } := hc.quiet rfl rfl rfl rfl unlogged
    cases change.2.watch with
    | keep => exact hset
    | start => exact hc.quiet rfl rfl rfl rfl ⟨_, rfl, rfl⟩
    | stop => exact hc.quiet rfl rfl rfl rfl ⟨_, rfl, rfl⟩
  refine hwatch.trans (hwatch.orderly.record (answeredCalls_eq_nil fun e he => ?_))
  obtain ⟨t, -, rfl⟩ := List.mem_map.mp he
  rfl

theorem Orderly.setSelf (hc : c.Orderly) (h : Handle) : c.Receives [] (c.setSelf h) := by
  unfold Connection.setSelf
  by_cases hgone : c.status = .disconnected
  · rw [if_pos hgone]
    exact hc.refl
  · rw [if_neg hgone]
    have hnext : c.Receives []
        { c with self := some h, tables := c.tables.exchangeContacts [h] c.self.toList } :=
      hc.quiet rfl rfl rfl rfl unlogged
    by_cases hnews : c.self ≠ some h ∧ c.status = .connected
    · exact (if_pos hnews).symm ▸ hnext.trans (hnext.orderly.record rfl)
    · exact (if_neg hnews).symm ▸ hnext

theorem Orderly.register (hc : c.Orderly) : c.Receives [] c.register.2 := by
  unfold Connection.register
  cases c.config.validate with
  | error e => exact hc.refl
  | ok valid =>
    cases c.bus.claimName c.names.busName with
    | error r => exact hc.record rfl
    | ok bus =>
      have hnamed : c.Receives [] (c.record [.nameClaimed c.names.busName true]) := hc.record rfl
      simp only
      cases bus.exportObject (c.record [.nameClaimed c.names.busName true]).names.path
        (c.record [.nameClaimed c.names.busName true]).interfaces with
      | error r =>
        exact hnamed.trans (hnamed.orderly.quiet rfl rfl rfl rfl ⟨_, rfl, rfl⟩)
      | ok bus =>
        exact hnamed.trans (hnamed.orderly.quiet rfl rfl rfl rfl ⟨_, rfl, rfl⟩)

theorem Orderly.loseName (hc : c.Orderly) : c.Receives [] c.loseName.2 := by
  unfold Connection.loseName
  cases c.bus.claimName c.names.busName with
  | error r => exact hc.record rfl
  | ok bus => exact hc.quiet rfl rfl rfl rfl ⟨_, rfl, rfl⟩

theorem Orderly.losePath (hc : c.Orderly) : c.Receives [] c.losePath.2 := by
  unfold Connection.losePath
  cases c.bus.exportObject c.names.path [] with
  | error r => exact hc.record rfl
  | ok bus => exact hc.quiet rfl rfl rfl rfl ⟨_, rfl, rfl⟩

theorem Orderly.nameSelf (hc : c.Orderly) (name : ContactName) :
    c.Receives [] (c.nameSelf name).2 := by
  have hresolve : c.Receives [] (c.resolveContact name).2 := hc.quiet rfl rfl rfl rfl unlogged
  unfold Connection.nameSelf
  generalize c.resolveContact name = resolved at hresolve
  obtain ⟨found, c'⟩ := resolved
  cases found with
  | error e => exact hresolve
  | ok h => exact hresolve.trans (hresolve.orderly.setSelf h)

theorem Orderly.internKept (hc : c.Orderly) (entity : EntityType) (id : String)
    (keep : Option String) : c.Receives [] (c.internKept entity id keep).2 := by
  unfold Connection.internKept
  cases c.tables.intern entity id with
  | error e => exact hc.refl
  | ok interned =>
    cases keep with
    | none => exact hc.quiet rfl rfl rfl rfl unlogged
    | some name => exact hc.quiet rfl rfl rfl rfl unlogged

theorem Orderly.takeTurn (hc : c.Orderly) (tables : HandleTables) {seat : Nat} {t : Turn σ ρ}
    (h : ({ c with tables } : Connection σ ρ).takeTurn seat t = .ok c₁) : c.Receives [] c₁ := by
  have htables : c.Receives [] { c with tables } := hc.quiet rfl rfl rfl rfl unlogged
  exact htables.trans (htables.orderly.served (served_takeTurn h))

theorem Orderly.completeLookup (hc : c.Orderly) {ticket : LookupTicket} {entity : EntityType}
    {name : ContactName} {out : StepOutcome σ ρ}
    (h : c.completeLookup ticket entity name = .ok out) : c.Receives [] out.2 := by
  unfold Connection.completeLookup at h
  cases hget : c.tables.get entity with
  | error e =>
    simp only [hget] at h
    cases h
    exact hc.refl
  | ok t =>
    simp only [hget] at h
    have htables : c.Receives [] { c with tables := c.tables.set entity (t.resolve name).2 } :=
      hc.quiet rfl rfl rfl rfl unlogged
    cases hfound : (t.resolve name).1 with
    | error e =>
      simp only [hfound] at h
      cases h
      exact htables
    | ok target =>
      simp only [hfound] at h
      obtain ⟨⟨outcome, c'⟩, hresume, heq⟩ := Except.map_eq_ok.mp h
      subst heq
      exact htables.trans (htables.orderly.resumeLookup hresume)

theorem Orderly.changeManager (hc : c.Orderly) {seat : Nat} {f : σ → σ} {out : StepOutcome σ ρ}
    (h : c.changeManager seat f = .ok out) : c.Receives [] out.2 := by
  unfold Connection.changeManager at h
  split at h
  case h_1 =>
    cases h
    exact hc.refl
  case h_2 turn _ =>
    obtain ⟨c', hturn, rfl⟩ := Except.map_eq_ok.mp h
    exact hc.takeTurn c.tables hturn

theorem Orderly.changeServer (hc : c.Orderly) {seat : Nat} {names : List ContactName}
    {f : SortedSet Handle → ρ → ρ} {out : StepOutcome σ ρ}
    (h : c.changeServer seat names f = .ok out) : c.Receives [] out.2 := by
  simp only [Connection.changeServer] at h
  split at h
  case h_1 =>
    cases h
    exact hc.refl
  case h_2 m _ =>
    split at h
    case h_1 =>
      cases h
      exact hc.quiet rfl rfl rfl rfl unlogged
    case h_2 =>
      split at h
      case h_1 =>
        cases h
        exact hc.quiet rfl rfl rfl rfl unlogged
      case h_2 =>
        obtain ⟨c', hturn, rfl⟩ := Except.map_eq_ok.mp h
        exact hc.takeTurn _ hturn

theorem Orderly.performContacts (hc : c.Orderly) {seat : Nat}
    {op : ContactOperation (List ContactName)} {out : StepOutcome σ ρ}
    (h : c.performContacts seat op = .ok out) : c.Receives [] out.2 := by
  simp only [Connection.performContacts] at h
  split at h
  case h_1 =>
    cases h
    exact hc.refl
  case h_2 m _ =>
    split at h
    case h_1 =>
      cases h
      exact hc.quiet rfl rfl rfl rfl unlogged
    case h_2 =>
      split at h
      case h_1 =>
        cases h
        exact hc.quiet rfl rfl rfl rfl unlogged
      case h_2 =>
        obtain ⟨c', hturn, rfl⟩ := Except.map_eq_ok.mp h
        exact hc.takeTurn _ hturn

/-- Every operation adds the call it delivers to the accounts, and nothing else. -/
theorem Orderly.step (hc : c.Orderly) {op : Operation σ ρ} {out : StepOutcome σ ρ}
    (h : c.step op = .ok out) : c.Receives op.call?.toList out.2 := by
  cases op with
  | register =>
    cases h
    exact hc.register
  | connect =>
    obtain ⟨⟨outcome, c'⟩, hconnect, rfl⟩ := Except.map_eq_ok.mp h
    exact hc.connect hconnect
  | disconnect call =>
    obtain ⟨c', hdisconnect, rfl⟩ := Except.map_eq_ok.mp h
    exact hc.disconnect hdisconnect
  | finishShutdown =>
    cases h
    exact hc.finishShutdown
  | changeStatus status reason =>
    obtain ⟨⟨outcome, c'⟩, hchange, rfl⟩ := Except.map_eq_ok.mp h
    exact hc.changeStatus hchange
  | setSelf contact =>
    cases h
    exact hc.nameSelf contact
  | request call method properties =>
    obtain ⟨c', hrequest, rfl⟩ := Except.map_eq_ok.mp h
    exact hc.request hrequest
  | lookupFound ticket entity target => exact hc.completeLookup h
  | lookupFailed ticket e =>
    cases h
    exact hc.failLookup ticket e
  | cancelLookup ticket =>
    cases h
    exact hc.failLookup ticket _
  | addInterest client tokens =>
    cases h
    simp only [following, addInterest]
    by_cases hgone : c.status = .disconnected
    · rw [if_pos hgone]
      exact hc.refl
    · rw [if_neg hgone]
      exact hc.applyInterest client _
  | removeInterest client tokens =>
    cases h
    exact hc.applyInterest client _
  | clientVanished client =>
    cases h
    exact hc.applyInterest client _
  | intern entity id keep =>
    cases h
    exact hc.internKept entity id keep
  | drop name =>
    cases h
    exact hc.quiet rfl rfl rfl rfl unlogged
  | collect =>
    cases h
    exact hc.quiet rfl rfl rfl rfl unlogged
  | report r =>
    obtain ⟨c', hsettle, rfl⟩ := Except.map_eq_ok.mp h
    exact hc.served (served_settle hsettle)
  | loseName =>
    cases h
    exact hc.loseName
  | losePath =>
    cases h
    exact hc.losePath
  | changeManager seat f => exact hc.changeManager h
  | changeServer seat names f => exact hc.changeServer h
  | contacts seat op => exact hc.performContacts h

/-- A run adds the calls it delivers to the accounts. -/
theorem Orderly.run (hc : c.Orderly) {ops : List (Operation σ ρ)} (h : c.run ops = .ok c₁) :
    c.Receives (delivered ops) c₁ := by
  induction ops generalizing c with
  | nil =>
    cases h
    exact hc.refl
  | cons op ops ih =>
    obtain ⟨c', hstep, hrest⟩ :=
      Except.bind_eq_ok.mp (by rwa [Connection.run, List.foldlM_cons] at h)
    obtain ⟨out, hout, rfl⟩ := Except.map_eq_ok.mp hstep
    have hfirst := hc.step hout
    have hboth := hfirst.trans (ih hfirst.orderly hrest)
    have hcalls : delivered (op :: ops) = op.call?.toList ++ delivered ops := by
      unfold delivered
      cases hcall : op.call? with
      | none => simp [hcall]
      | some call => simp [hcall]
    rwa [hcalls]

/-! ## Replies -/

theorem length_answersTo (c : Connection σ ρ) (call : CallId) :
    (c.answersTo call).length = (answeredCalls c.log).count call := by
  have hcalls : answeredCalls c.log = c.answers.map Prod.fst := by
    rw [answers, List.map_filterMap, answeredCalls]
    congr 1
    funext e
    cases e <;> rfl
  rw [hcalls, List.count, List.countP_map, List.countP_eq_length_filter, answersTo, List.length_map]
  rfl

theorem orderly_new (backend : Backend) (config : Config) (tables : HandleTables)
    (plans : List (ManagerPlan σ ρ)) : (Connection.new backend config tables plans).Orderly :=
  ⟨RequestLedger.issued_empty, fun _ => ⟨rfl, rfl⟩, fun h => absurd h Bool.false_ne_true⟩

/-- A run from a new connection accounts for each call as often as it delivers it. -/
theorem tally_of_run {backend : Backend} {config : Config} {tables : HandleTables}
    {plans : List (ManagerPlan σ ρ)} {ops : List (Operation σ ρ)}
    (h : (Connection.new backend config tables plans).run ops = .ok c) (call : CallId) :
    c.tally call = (delivered ops).count call :=
  (((orderly_new backend config tables plans).run h).tally call).trans (Nat.zero_add _)

/-- Who talks to a ticket that no request is parked on is told so, and nothing else happens. -/
theorem stale_lookup {ticket : LookupTicket} (h : c.ledger.parked.contains ticket = false)
    (target : Handle) (e : Error) :
    c.resumeLookup ticket target = .ok (.error (staleTicket ticket), c) ∧
      c.failLookup ticket e = (.error (staleTicket ticket), c) := by
  have hnone := RequestLedger.unpark?_eq_none_iff.mpr h
  constructor
  · simp only [resumeLookup, hnone]
    rfl
  · simp only [failLookup, hnone]

/-- In every run that delivers different calls, each is answered once: at any point a call was
answered at most once, and not at all exactly while it waits in one place. What was resolved stays
resolved, tickets that are not parked are refused without effect, and once the shutdown is over
every call has its answer by the end of the operation that delivers it. -/
theorem run_answers_once (backend : Backend) (config : Config) (tables : HandleTables)
    (plans : List (ManagerPlan σ ρ)) {ops ops' : List (Operation σ ρ)} {c c' : Connection σ ρ}
    (h : (Connection.new backend config tables plans).run ops = .ok c) (h' : c.run ops' = .ok c')
    (hdistinct : (delivered (ops ++ ops')).Nodup) :
    (∀ call ∈ delivered ops,
      (c.answersTo call).length ≤ 1 ∧
        (c.answersTo call = [] ↔
          c.ledger.callsInFlight.count call + c.ledger.callsParked.count call +
            c.disconnectCalls.count call = 1)) ∧
    (∀ token,
      (c.ledger.isPending token = true →
        c'.ledger.isPending token = true ∨ c'.ledger.Resolved token) ∧
      (c.ledger.Resolved token → c'.ledger.Resolved token)) ∧
    (∀ ticket,
      (c.ledger.parked.contains ticket = true →
        c'.ledger.parked.contains ticket = true ∨ c'.ledger.LookedUp ticket) ∧
      (c.ledger.LookedUp ticket → c'.ledger.LookedUp ticket)) ∧
    (∀ ticket target e, c.ledger.parked.contains ticket = false →
      c.resumeLookup ticket target = .ok (.error (staleTicket ticket), c) ∧
        c.failLookup ticket e = (.error (staleTicket ticket), c) ∧
        c.cancelLookup ticket = (.error (staleTicket ticket), c) ∧
        (staleTicket ticket).kind = .notAvailable) ∧
    (c.shutDown = true →
      c'.shutDown = true ∧
        ∀ call ∈ delivered (ops ++ ops'), (c'.answersTo call).length = 1) := by
  have hfirst := (orderly_new backend config tables plans).run h
  have hsecond := hfirst.orderly.run h'
  have hcalls : delivered (ops ++ ops') = delivered ops ++ delivered ops' := List.filterMap_append
  have hdistinct' := hdistinct
  rw [hcalls] at hdistinct'
  refine ⟨fun call hcall => ?_, fun token => ⟨fun ht => ?_, fun ht => ?_⟩,
    fun ticket => ⟨fun ht => ?_, fun ht => ?_⟩, fun ticket target e hstale => ?_,
    fun hover => ⟨hsecond.shutDown hover, fun call hcall => ?_⟩⟩
  · have hone : c.tally call = 1 := by
      rw [tally_of_run h, (List.nodup_append.mp hdistinct').1.count, if_pos hcall]
    have hlength := length_answersTo c call
    rw [Connection.tally] at hone
    refine ⟨by omega, ?_⟩
    rw [← List.length_eq_zero_iff]
    omega
  · exact hfirst.orderly.issued.pending_or_resolved hsecond.advances ht
  · exact ht.of_advances hsecond.advances
  · exact hfirst.orderly.issued.parked_or_lookedUp hsecond.advances ht
  · exact ht.of_advances hsecond.advances
  · obtain ⟨hresume, hfail⟩ := stale_lookup hstale target e
    exact ⟨hresume, hfail, (stale_lookup hstale target _).2, rfl⟩
  · have hone : c'.tally call = 1 := by
      rw [hsecond.tally, tally_of_run h, ← List.count_append, ← hcalls, hdistinct.count,
        if_pos hcall]
    obtain ⟨hgone, hnobody⟩ := hsecond.orderly.ended (hsecond.shutDown hover)
    obtain ⟨hflight, hparked⟩ := hsecond.orderly.gone hgone
    have hnoFlight : c'.ledger.callsInFlight = [] := by
      rw [RequestLedger.callsInFlight, hflight]
      rfl
    have hnoParked : c'.ledger.callsParked = [] := by rw [RequestLedger.callsParked, hparked]; rfl
    rw [Connection.tally, hnoFlight, hnoParked, hnobody] at hone
    rw [length_answersTo]
    simpa using hone

/-- A connection whose backend looks rooms up and takes its time to tear down, with one manager,
which accepts every request and keeps it. -/
def holding : Connection Unit Unit :=
  .new ⟨"sample", "account", [], [], none, true, fun _ _ _ => none⟩ .standard
    ⟨.onDemand .contact, some (.requiringLookup .room), none, none⟩
    [.custom
      { channels := fun _ => []
        classes := fun _ => []
        create := fun state _ => ⟨.accepted, state, []⟩
        ensure := fun state _ => ⟨.accepted, state, []⟩ }
      fun _ => ()]

/-- Three requests are kept, parked and refused; then a client disconnects. -/
def requestsAndEnd : List (Operation Unit Unit) :=
  [.setSelf (.id "user"), .changeStatus .connected .requested,
    .request ⟨1⟩ .create (.ofList [(Property.channelType, .text "text")]),
    .request ⟨2⟩ .ensure (.ofList [(Property.channelType, .text "text"),
      (Property.targetEntity, .nat 2), (Property.targetId, .text "room")]),
    .request ⟨3⟩ .create .empty, .disconnect ⟨4⟩, .disconnect ⟨5⟩, .finishShutdown]

/-- All of them are answered when the shutdown is over, and so are those who come too late. -/
theorem requestsAndEnd_answered :
    ∃ c c', holding.run requestsAndEnd = .ok c ∧
      c.run [.disconnect ⟨6⟩, .request ⟨7⟩ .create .empty] = .ok c' ∧
      (c.lookups.length, c.offers.length) = (1, 1) ∧
      ∀ call ∈ [1, 2, 3, 4, 5, 6, 7].map CallId.mk, (c'.answersTo call).length = 1 := by
  have heval : ((holding.run requestsAndEnd).toOption.any fun c =>
      c.shutDown && (c.lookups.length, c.offers.length) = (1, 1) &&
        (c.run [.disconnect ⟨6⟩, .request ⟨7⟩ .create .empty]).toOption.any fun _ => true) =
      true := by decide +kernel
  obtain ⟨c, hrun, hc⟩ := Except.eq_ok_of_any heval
  rw [Bool.and_eq_true, Bool.and_eq_true, decide_eq_true_iff] at hc
  obtain ⟨⟨hover, hcounts⟩, hrest⟩ := hc
  obtain ⟨c', hlate, -⟩ := Except.eq_ok_of_any hrest
  have hdistinct : (delivered (requestsAndEnd ++
      [.disconnect ⟨6⟩, .request ⟨7⟩ .create .empty])).Nodup := by decide
  obtain ⟨-, -, -, -, hanswered⟩ := run_answers_once _ _ _ _ hrun hlate hdistinct
  exact ⟨c, c', hrun, hlate, hcounts, (hanswered hover).2⟩

end Connection

end Telepathy

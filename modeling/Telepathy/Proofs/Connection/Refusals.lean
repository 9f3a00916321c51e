import Telepathy.ContactList.MemoryServer
import Telepathy.Proofs.Connection.References
import Telepathy.Proofs.Connection.Tables
import Telepathy.Proofs.Handle.Return
import Telepathy.Proofs.Request.Grammar

set_option autoImplicit false

/-!
# Requests that come to nothing

A request can be refused before any manager hears of it, and it can be declined by all of them.
`Refused` lists the grounds of the first kind, each of which presupposes that no earlier one holds:
all that such a request leaves behind is its answer. A request that everybody declined was in flight
for a while, so its target was held and managers were asked; afterwards nothing of that is left but
the events, the token, and the handle of an identifier that was named for the first time.
-/

namespace Telepathy

variable {σ ρ : Type}

/-! ## Targets that are not found -/

namespace HandleTable

/-- A table gives no handle to an identifier: it is not acceptable, or the table knows all its
identifiers from the start and this is none of them. -/
inductive Refuses (t : HandleTable) (id : String) : Prop
  | unacceptable {reason : String} (h : t.normalise id = .error reason)
  | unknown {canonical : String} (h : t.normalise id = .ok canonical)
      (hfixed : t.allocation = .fixed) (hunknown : t.index.get? canonical = none)

theorem normalised_of_ok {t : HandleTable} {id canonical : String}
    (h : t.normalise id = .ok canonical) : t.normalised id = .ok canonical := by
  rw [normalised, h]
  rfl

theorem normalised_of_error {t : HandleTable} {id reason : String}
    (h : t.normalise id = .error reason) :
    t.normalised id = .error (.invalidIdentifier t.entity id reason) := by
  rw [normalised, h]
  rfl

theorem Refuses.ensure {t : HandleTable} {id : String} (h : t.Refuses id) :
    ∃ e, t.ensure id = .error e ∧ e.kind = .invalidHandle := by
  cases h with
  | @unacceptable reason h =>
    refine ⟨.invalidIdentifier t.entity id reason, ?_, rfl⟩
    rw [HandleTable.ensure, normalised_of_error h]
    rfl
  | unknown h hfixed hunknown =>
    refine ⟨t.unknown id, ?_, rfl⟩
    simp only [HandleTable.ensure, normalised_of_ok h, bind, Except.bind, hunknown, hfixed]
    rfl

/-- A table gives a handle to an identifier, has it looked up or refuses it. -/
theorem ensure_cases (t : HandleTable) (id : String) :
    (∃ r, t.ensure id = .ok r) ∨ (∃ e id', t.ensure id = .error (.lookupRequired e id')) ∨
      t.Refuses id := by
  cases hcanonical : t.normalise id with
  | error reason => exact .inr (.inr (.unacceptable hcanonical))
  | ok canonical =>
    have hnormalised := normalised_of_ok hcanonical
    cases hknown : t.index.get? canonical with
    | some h =>
      refine .inl ⟨(h, t), ?_⟩
      simp only [HandleTable.ensure, hnormalised, bind, Except.bind, hknown]
      rfl
    | none =>
      cases hallocation : t.allocation with
      | fixed => exact .inr (.inr (.unknown hcanonical hallocation hknown))
      | afterLookup =>
        refine .inr (.inl ⟨t.entity, canonical, ?_⟩)
        simp only [HandleTable.ensure, hnormalised, bind, Except.bind, hknown, hallocation]
        rfl
      | onDemand =>
        refine .inl ⟨(t.next, t.allocate canonical), ?_⟩
        simp only [HandleTable.ensure, hnormalised, bind, Except.bind, hknown, hallocation]
        rfl

end HandleTable

namespace Connection

variable {c c₁ : Connection σ ρ} {call : CallId} {method : RequestMethod} {p : PropertyMap}
  {r : ValidRequest} {kind : ErrorKind}

/-! ## Grounds of refusal -/

/-- Why a request is refused before any manager hears of it, in the order in which this is found
out. -/
inductive Refused (c : Connection σ ρ) (method : RequestMethod) (p : PropertyMap) :
    ErrorKind → Prop
  | notConnected (h : c.status ≠ .connected) : Refused c method p .disconnected
  | malformed (hstatus : c.status = .connected) (h : ¬ p.WellFormed) :
      Refused c method p .invalidArgument
  /-- There are no handles of the entity type of the target. -/
  | noTable {r : ValidRequest} (hstatus : c.status = .connected) (hr : p.Requests method r)
      (htarget : r.target ≠ .none) (h : c.tables.get? r.entity = none) :
      Refused c method p .notImplemented
  /-- The target is not a handle in use. -/
  | handle {r : ValidRequest} {x : Handle} {t : HandleTable} (hstatus : c.status = .connected)
      (hr : p.Requests method r) (htarget : r.target = .handle x)
      (ht : c.tables.get? r.entity = some t) (h : t.isValid x = false) :
      Refused c method p .invalidHandle
  /-- The table of the entity type does not take the identifier. -/
  | id {r : ValidRequest} {id : String} {t : HandleTable} (hstatus : c.status = .connected)
      (hr : p.Requests method r) (htarget : r.target = .id id)
      (ht : c.tables.get? r.entity = some t) (h : t.Refuses id) : Refused c method p .invalidHandle

theorem findTarget_of_noTable (htarget : r.target ≠ .none) (h : c.tables.get? r.entity = none) :
    c.findTarget r = .error (.unsupportedEntity r.entity) := by
  have hget : c.tables.get r.entity = .error (.unsupportedEntity r.entity) := by
    rw [HandleTables.get, h]
  unfold findTarget
  cases hr : r.target with
  | none => exact absurd hr htarget
  | handle x => simp [HandleTables.hold, hget, bind, Except.bind, Except.map]
  | id id => simp [HandleTables.ensure, hget, bind, Except.bind, Except.map]

theorem findTarget_of_handle {x : Handle} {t : HandleTable} (htarget : r.target = .handle x)
    (ht : c.tables.get? r.entity = some t) :
    c.findTarget r = if t.isValid x then .ok (some x, c.tables)
      else .error (.invalidHandle t.entity x.number) := by
  rw [findTarget, htarget]
  simp only [HandleTables.hold, HandleTables.get_eq_ok.mpr ht, HandleTable.hold, bind, Except.bind]
  split <;> rfl

theorem findTarget_of_id {id : String} {t : HandleTable} (htarget : r.target = .id id)
    (ht : c.tables.get? r.entity = some t) :
    c.findTarget r =
      (t.ensure id).map fun found => (some found.1, c.tables.set r.entity found.2) := by
  rw [findTarget, htarget]
  simp only [HandleTables.ensure, HandleTables.get_eq_ok.mpr ht, bind, Except.bind]
  cases t.ensure id <;> rfl

/-- A well-formed request has its target found, or looked up, or it is refused. -/
theorem found_or_refused (hstatus : c.status = .connected) (hr : p.Requests method r) :
    (∃ found, c.findTarget r = .ok found) ∨
      (∃ e id, c.findTarget r = .error (.lookupRequired e id)) ∨
      ∃ kind, Refused c method p kind := by
  cases htarget : r.target with
  | none => exact .inl ⟨(none, c.tables), by rw [findTarget, htarget]⟩
  | handle x =>
    cases ht : c.tables.get? r.entity with
    | none => exact .inr (.inr ⟨_, .noTable hstatus hr (by simp [htarget]) ht⟩)
    | some t =>
      cases hvalid : t.isValid x with
      | true => exact .inl ⟨_, by rw [findTarget_of_handle htarget ht, if_pos hvalid]⟩
      | false => exact .inr (.inr ⟨_, .handle hstatus hr htarget ht hvalid⟩)
  | id id =>
    cases ht : c.tables.get? r.entity with
    | none => exact .inr (.inr ⟨_, .noTable hstatus hr (by simp [htarget]) ht⟩)
    | some t =>
      have hfound := findTarget_of_id htarget ht
      rcases t.ensure_cases id with ⟨x, hx⟩ | ⟨e, id', hlookup⟩ | hrefuses
      · exact .inl ⟨_, by rw [hfound, hx]; rfl⟩
      · exact .inr (.inl ⟨e, id', by rw [hfound, hlookup]; rfl⟩)
      · exact .inr (.inr ⟨_, .id hstatus hr htarget ht hrefuses⟩)

/-! ## Refusals -/

theorem request_of_valid (hstatus : c.status = .connected) (hr : p.Requests method r) :
    c.request call method p = c.submit call r := by
  rw [request, if_pos hstatus, PropertyMap.validate_eq_ok_iff.mpr hr]

/-- A request whose target is not found, and is not to be looked up, is answered with the
failure. -/
theorem submit_of_error {e : HandleError} (h : c.findTarget r = .error e)
    (hkind : e.kind ≠ .notAvailable) :
    c.submit call r = .ok (c.answer call (.failed e.toError)) := by
  unfold submit
  rw [h]
  cases e with
  | lookupRequired entity id => exact absurd rfl hkind
  | _ => rfl

/-- A refused request is answered, and nothing else happens. -/
theorem request_of_refused (call : CallId) (h : Refused c method p kind) :
    ∃ message, c.request call method p = .ok (c.answer call (.failed ⟨kind, message⟩)) := by
  cases h with
  | notConnected h => exact ⟨_, by rw [request, if_neg h]; rfl⟩
  | malformed hstatus h =>
    rw [request, if_pos hstatus]
    cases hvalid : p.validate method with
    | ok r => exact absurd (PropertyMap.validate_isOk_iff.mp ⟨r, hvalid⟩) h
    | error m => exact ⟨m.message, rfl⟩
  | noTable hstatus hr htarget h =>
    rw [request_of_valid hstatus hr]
    exact ⟨_, submit_of_error (findTarget_of_noTable htarget h) (by simp [HandleError.kind])⟩
  | @handle r x t hstatus hr htarget ht h =>
    have hfound := findTarget_of_handle (c := c) htarget ht
    rw [h] at hfound
    rw [request_of_valid hstatus hr]
    exact ⟨_, submit_of_error hfound (by simp [HandleError.kind])⟩
  | id hstatus hr htarget ht h =>
    obtain ⟨e, he, hkind⟩ := h.ensure
    have hfound := findTarget_of_id (c := c) htarget ht
    rw [he] at hfound
    rw [request_of_valid hstatus hr]
    exact ⟨e.message, hkind ▸ submit_of_error hfound (by simp [hkind])⟩

end Connection

/-! ## Requests that everybody declines -/

/-- A manager declines a request without reporting on any, and holds what it held before. -/
structure Manager.Declines (m : Manager σ ρ) (r : ChannelRequest) : Prop where
  declined : ∀ tables, (m.offer tables r).1 = .declined
  unreported : ∀ tables report, .report report ∉ (m.offer tables r).2.effects
  holds : ∀ tables, (m.offer tables r).2.manager.references.Perm m.references

theorem Manager.Declines.tables {m : Manager σ ρ} {r : ChannelRequest} (h : m.Declines r)
    (tables : HandleTables) : (m.offer tables r).2.tables = tables := by
  cases m with
  | custom b state => exact tables.releaseAll_retainAll (h.holds tables)
  | contacts server list data =>
    have hdeclined := h.declined tables
    simp only [Manager.offer] at hdeclined ⊢
    rcases ContactScene.offer_spec server ⟨list, data, tables, []⟩ r with heq | ⟨s, heq, -⟩
    · rw [heq]
      rfl
    · rw [heq] at hdeclined
      cases hdeclined

namespace Connection

variable {c c₁ : Connection σ ρ} {call : CallId} {method : RequestMethod} {p : PropertyMap}
  {r : ValidRequest}

theorem record_record (c : Connection σ ρ) (events events' : List Event) :
    (c.record events).record events' = c.record (events ++ events') := by
  simp [record]

/-- Managers that report on nothing only say something, and answer no call. -/
theorem performAll_of_unreported {effects : List Effect}
    (h : ∀ report, .report report ∉ effects) (seat : Nat) (c : Connection σ ρ) :
    ∃ events, effects.foldlM (perform seat) c = .ok (c.record events) ∧
      ∀ call a, .answered call a ∉ events := by
  induction effects generalizing c with
  | nil => exact ⟨[], by simp [record, pure, Except.pure], by simp⟩
  | cons e effects ih =>
    have hrest : ∀ report, .report report ∉ effects := fun report hmem =>
      h report (List.mem_cons_of_mem e hmem)
    have hfirst : ∃ event, perform seat c e = .ok (c.record [event]) ∧
        ∀ call a, event ≠ .answered call a := by
      cases e with
      | report report => exact absurd List.mem_cons_self (h report)
      | signal path s => exact ⟨.signal path s, rfl, by simp⟩
      | called call => exact ⟨.called seat call, rfl, by simp⟩
    obtain ⟨event, hperform, hnoAnswer⟩ := hfirst
    obtain ⟨events, hperforms, hnoAnswers⟩ := ih hrest (c.record [event])
    refine ⟨event :: events, ?_, fun call a hmem => ?_⟩
    · rw [List.foldlM_cons, hperform]
      exact hperforms.trans (by rw [record_record, List.singleton_append])
    · rcases List.mem_cons.mp hmem with heq | hmem
      · exact hnoAnswer call a heq.symm
      · exact hnoAnswers call a hmem

/-- Nothing happened but that managers were asked and said something. -/
structure Canvassed (c c₁ : Connection σ ρ) : Prop where
  frame : c₁ = { c with managers := c₁.managers, log := c₁.log }
  events : ∃ events, c₁.log = c.log ++ events ∧ ∀ call a, .answered call a ∉ events

namespace Canvassed

theorem refl (c : Connection σ ρ) : c.Canvassed c := ⟨rfl, [], by simp, by simp⟩

theorem trans {c₂ : Connection σ ρ} (h : c.Canvassed c₁) (h' : c₁.Canvassed c₂) :
    c.Canvassed c₂ := by
  obtain ⟨events, hlog, hnone⟩ := h.events
  obtain ⟨events', hlog', hnone'⟩ := h'.events
  refine ⟨by rw [h'.frame, h.frame], events ++ events', by rw [hlog', hlog, List.append_assoc],
    fun call a hmem => ?_⟩
  rcases List.mem_append.mp hmem with hmem | hmem
  · exact hnone call a hmem
  · exact hnone' call a hmem

end Canvassed

theorem offerAt_of_declines {request : ChannelRequest} {seat : Nat} {m : Manager σ ρ}
    (hm : c.managers[seat]? = some m) (h : m.Declines request) :
    ∃ c₁ m', c.offerAt request seat = .ok (.declined, c₁) ∧ c.Canvassed c₁ ∧
      c₁.managers = c.managers.set seat m' := by
  let turn := (m.offer c.tables request).2
  let turned : Connection σ ρ := { c.record [.offered seat request] with
    managers := c.managers.set seat turn.manager
    tables := turn.tables }
  obtain ⟨events, hperform, hnone⟩ :=
    performAll_of_unreported (h.unreported c.tables) seat turned
  have htables : turn.tables = c.tables := h.tables c.tables
  refine ⟨turned.record events, turn.manager, ?_, ⟨?_, .offered seat request :: events, ?_, ?_⟩,
    rfl⟩
  · have hoffer : m.offer c.tables request = (.declined, turn) :=
      Prod.ext (h.declined c.tables) rfl
    have htaken : (c.record [.offered seat request]).takeTurn seat turn =
        .ok (turned.record events) := hperform
    rw [offerAt, hm]
    simp only [hoffer, htaken]
    rfl
  · simp [turned, record, htables]
  · simp [turned, record]
  · simpa using hnone

theorem offerTo_of_declines {request : ChannelRequest} {seats : List Nat} (hnodup : seats.Nodup)
    (h : ∀ seat ∈ seats, ∀ m, c.managers[seat]? = some m → m.Declines request) :
    ∃ c₁, c.offerTo request seats = .ok (.declined, c₁) ∧ c.Canvassed c₁ := by
  induction seats generalizing c with
  | nil => exact ⟨c, rfl, .refl c⟩
  | cons seat seats ih =>
    obtain ⟨hnew, hnodup⟩ := List.nodup_cons.mp hnodup
    cases hm : c.managers[seat]? with
    | none =>
      obtain ⟨c₁, hrest, hcanvassed⟩ := ih hnodup fun seat' hseat' => h seat' (.tail _ hseat')
      refine ⟨c₁, ?_, hcanvassed⟩
      simpa [offerTo, offerAt, hm, bind, Except.bind] using hrest
    | some m =>
      obtain ⟨c', m', hfirst, hcanvassed, hmanagers⟩ :=
        offerAt_of_declines hm (h seat List.mem_cons_self m hm)
      -- No other seat is the one that was asked.
      have hothers : ∀ seat' ∈ seats, ∀ m, c'.managers[seat']? = some m → m.Declines request := by
        intro seat' hseat' m'' hm''
        have hne : seat ≠ seat' := fun heq => hnew (heq ▸ hseat')
        rw [hmanagers, List.getElem?_set_ne hne] at hm''
        exact h seat' (.tail _ hseat') m'' hm''
      obtain ⟨c₁, hrest, hcanvassed'⟩ := ih hnodup hothers
      refine ⟨c₁, ?_, hcanvassed.trans hcanvassed'⟩
      simpa [offerTo, hfirst, bind, Except.bind] using hrest

/-- The connection with other handle tables. -/
def withTables (c : Connection σ ρ) (tables : HandleTables) : Connection σ ρ := { c with tables }

/-- The request that managers are asked for when the target of `r` is known. -/
def offering (c : Connection σ ρ) (r : ValidRequest) (target : Option Handle) : ChannelRequest :=
  .new c.ledger.nextToken r target ((target.map (Reference.mk r.entity)).bind c.tables.inspect)

/-- All managers decline a request. -/
def AllDecline (c : Connection σ ρ) (request : ChannelRequest) : Prop :=
  ∀ (seat : Nat) m, c.managers[seat]? = some m → m.Declines request

/-- What is left of a request that all managers declined: it was answered once, as not implemented,
and every reference that was taken for it was given back. -/
structure TurnedDown (c : Connection σ ρ) (call : CallId) (c₁ : Connection σ ρ) : Prop where
  answered : ∃ events message,
    c₁.log = c.log ++ events ++ [.answered call (.failed ⟨.notImplemented, message⟩)] ∧
      ∀ call' a, .answered call' a ∉ events
  tables : c₁.tables = c.tables

/-- A request that is still in flight when nobody took it is answered, and its target given back. -/
theorem refuse_of_claim {request : ChannelRequest} {pending : PendingRequest}
    {ledger : RequestLedger} (h : c.ledger.claim request.token = .ok (pending, ledger)) :
    ∃ message, c.refuse request =
      { c with ledger, tables := c.tables.releaseAll pending.target.toList }.answer pending.call
        (.failed ⟨.notImplemented, message⟩) := by
  rw [refuse, h]
  exact ⟨_, rfl⟩

/-- The connection once a request is in flight. -/
def tracking (c : Connection σ ρ) (call : CallId) (r : ValidRequest) (target : Option Handle) :
    Connection σ ρ :=
  { c with
    ledger := c.ledger.track ⟨call, r.method, target.map (Reference.mk r.entity)⟩
    tables := c.tables.retainAll (target.map (Reference.mk r.entity)).toList }

theorem present_eq (call : CallId) (r : ValidRequest) (target : Option Handle) :
    c.present call r target =
      ((c.tracking call r target).offerTo (c.offering r target) c.seats).bind fun x =>
        match x with
        | (.accepted, c') => .ok c'
        | (.declined, c') => .ok (c'.refuse (c.offering r target)) := rfl

theorem present_of_declines (call : CallId) {target : Option Handle}
    (h : c.AllDecline (c.offering r target)) :
    ∃ c₁, c.present call r target = .ok c₁ ∧ c.TurnedDown call c₁ := by
  let request := c.offering r target
  let pending : PendingRequest := ⟨call, r.method, target.map (Reference.mk r.entity)⟩
  let tracked := c.tracking call r target
  have hdeclines : ∀ seat ∈ c.seats, ∀ m, tracked.managers[seat]? = some m →
      m.Declines request := fun seat _ => h seat
  have hnodup : c.seats.Nodup := List.nodup_range
  obtain ⟨c', hoffered, hcanvassed⟩ := offerTo_of_declines hnodup hdeclines
  obtain ⟨events, hlog, hnone⟩ := hcanvassed.events
  have hledger : c'.ledger = tracked.ledger := by rw [hcanvassed.frame]
  have htables : c'.tables = tracked.tables := by rw [hcanvassed.frame]
  -- Nobody reported on the request, so it is in flight still.
  have hclaim : c'.ledger.claim request.token =
      .ok (pending, tracked.ledger.without [request.token]) := by
    rw [hledger]
    exact RequestLedger.claim_eq_ok_iff.mpr ⟨SortedMap.get?_insert_self _ _ _, rfl⟩
  obtain ⟨message, hrefused⟩ := refuse_of_claim hclaim
  refine ⟨c'.refuse request, by rw [present_eq, hoffered]; rfl, ⟨events, message, ?_, hnone⟩, ?_⟩
  · rw [hrefused]
    show c'.log ++ [_] = _
    rw [hlog]
    rfl
  · rw [hrefused]
    show c'.tables.releaseAll pending.target.toList = c.tables
    rw [htables]
    exact c.tables.releaseAll_retainAll (.refl _)

/-! ## Requests that come to nothing -/

/-- An identifier that was found is known to its table from then on. -/
theorem lookup_of_findTarget {id : String} {found : Option Handle × HandleTables}
    (htarget : r.target = .id id) (h : c.findTarget r = .ok found) :
    ∃ x t, found.1 = some x ∧ found.2.get? r.entity = some t ∧ t.lookup id = some x := by
  rw [findTarget, htarget] at h
  obtain ⟨x, hensure, rfl⟩ := Except.map_eq_ok.mp h
  obtain ⟨t, ht, hlookup⟩ := (HandleTables.issues_of_ensure hensure).lookup
  exact ⟨x.1, t, rfl, ht, hlookup⟩

/-- A request whose target is found is presented to the managers. -/
theorem step_request_of_found (call : CallId) {found : Option Handle × HandleTables}
    (hstatus : c.status = .connected) (hr : p.Requests method r) (h : c.findTarget r = .ok found) :
    c.step (.request call method p) =
      ((c.withTables found.2).present call r found.1).map quietly := by
  rw [step, request_of_valid hstatus hr, submit, h]
  rfl

/-- A parked request whose target is found is taken from its ticket and presented. -/
theorem step_lookupFound_of_found {ticket : LookupTicket} {q : ParkedRequest}
    {name : ContactName} {t : HandleTable} {x : Handle}
    (hq : c.ledger.parked.get? ticket = some q) (ht : c.tables.get? q.request.entity = some t)
    (hname : (t.resolve name).1 = .ok x) :
    c.step (.lookupFound ticket q.request.entity name) =
      ({ c with
        tables := c.tables.set q.request.entity (t.resolve name).2
        ledger := { c.ledger with parked := c.ledger.parked.erase ticket } }.present q.call
          q.request (some x)).map quietly := by
  rw [step, completeLookup, HandleTables.get_eq_ok.mpr ht]
  simp only [hname, resumeLookup, RequestLedger.unpark?, hq, Option.map_some]
  cases present _ q.call q.request (some x) <;> rfl

theorem step_request_of_declines (call : CallId) {found : Option Handle × HandleTables}
    (hstatus : c.status = .connected) (hr : p.Requests method r) (h : c.findTarget r = .ok found)
    (hdecline : c.AllDecline ((c.withTables found.2).offering r found.1)) :
    ∃ c₁, c.step (.request call method p) = .ok (.ok .nothing, c₁) ∧
      (c.withTables found.2).TurnedDown call c₁ := by
  obtain ⟨c₁, hpresent, hturned⟩ :=
    present_of_declines (c := c.withTables found.2) call hdecline
  exact ⟨c₁, by rw [step_request_of_found call hstatus hr h, hpresent]; rfl, hturned⟩

theorem step_lookupFound_of_declines {ticket : LookupTicket} {q : ParkedRequest}
    {name : ContactName} {t : HandleTable} {x : Handle}
    (hq : c.ledger.parked.get? ticket = some q) (ht : c.tables.get? q.request.entity = some t)
    (hname : (t.resolve name).1 = .ok x)
    (hdecline : c.AllDecline ((c.withTables (c.tables.set q.request.entity
      (t.resolve name).2)).offering q.request (some x))) :
    ∃ c₁, c.step (.lookupFound ticket q.request.entity name) = .ok (.ok .nothing, c₁) ∧
      (c.withTables (c.tables.set q.request.entity (t.resolve name).2)).TurnedDown q.call c₁ := by
  let unparked : Connection σ ρ := { c with
    tables := c.tables.set q.request.entity (t.resolve name).2
    ledger := { c.ledger with parked := c.ledger.parked.erase ticket } }
  obtain ⟨c₁, hpresent, hturned⟩ := present_of_declines (c := unparked) q.call hdecline
  exact ⟨c₁, by rw [step_lookupFound_of_found hq ht hname, hpresent]; rfl,
    ⟨hturned.answered, hturned.tables⟩⟩

/-- A request that is refused before managers hear of it leaves nothing behind but the answer, with
the first ground there is; if there is none its target is found or looked up. A request that all
managers declined, at once or after a lookup, is answered too: the identifier it named stays known,
and every reference is counted as before. -/
theorem run_refuses_without_trace (backend : Backend) (config : Config) {tables : HandleTables}
    (plans : List (ManagerPlan σ ρ)) (hfresh : tables.Fresh) {ops : List (Operation σ ρ)}
    {c : Connection σ ρ} (hrun : (new backend config tables plans).run ops = .ok c) :
    (∀ call method p kind, Refused c method p kind → ∃ message,
      c.step (.request call method p) = .ok (.ok .nothing,
        { c with log := c.log ++ [.answered call (.failed ⟨kind, message⟩)] })) ∧
    (∀ method p, (∃ kind, Refused c method p kind) ∨
      c.status = .connected ∧ ∃ r, p.Requests method r ∧
        ((∃ found, c.findTarget r = .ok found) ∨
          ∃ e id, c.findTarget r = .error (.lookupRequired e id))) ∧
    (∀ call method p r target tables', c.status = .connected → p.Requests method r →
      c.findTarget r = .ok (target, tables') →
      c.AllDecline ((c.withTables tables').offering r target) →
        ∃ c', c.step (.request call method p) = .ok (.ok .nothing, c') ∧
          (c.withTables tables').TurnedDown call c' ∧
          (∀ x, c'.tables.referencesTo x = c.tables.referencesTo x) ∧
          ∀ id, r.target = .id id → ∃ x t, target = some x ∧
            c'.tables.get? r.entity = some t ∧ t.lookup id = some x ∧ t.isValid x = true) ∧
    (∀ ticket q name t x tables', c.ledger.parked.get? ticket = some q →
      c.tables.get? q.request.entity = some t → (t.resolve name).1 = .ok x →
      tables' = c.tables.set q.request.entity (t.resolve name).2 →
      c.AllDecline ((c.withTables tables').offering q.request (some x)) →
        ∃ c', c.step (.lookupFound ticket q.request.entity name) = .ok (.ok .nothing, c') ∧
          (c.withTables tables').TurnedDown q.call c' ∧
          (∀ x, c'.tables.referencesTo x = c.tables.referencesTo x) ∧
          c'.tables.isValid ⟨q.request.entity, x⟩ = true) := by
  have hsound := sound_run hfresh hrun
  refine ⟨fun call method p kind h => ?_, fun method p => ?_, ?_, ?_⟩
  · obtain ⟨message, hrequest⟩ := request_of_refused call h
    exact ⟨message, by rw [step, hrequest]; rfl⟩
  · by_cases hstatus : c.status = .connected
    · by_cases hp : p.WellFormed
      · obtain ⟨r, hr⟩ := hp.exists_requests method
        rcases found_or_refused hstatus hr with hfound | hlookup | hrefused
        · exact .inr ⟨hstatus, r, hr, .inl hfound⟩
        · exact .inr ⟨hstatus, r, hr, .inr hlookup⟩
        · exact .inl hrefused
      · exact .inl ⟨_, .malformed hstatus hp⟩
    · exact .inl ⟨_, .notConnected hstatus⟩
  · intro call method p r target tables' hstatus hr hfound hdecline
    obtain ⟨c', hstep, hturned⟩ := step_request_of_declines call hstatus hr hfound hdecline
    have htables : c'.tables = tables' := hturned.tables
    refine ⟨c', hstep, hturned, fun x => ?_, fun id htarget => ?_⟩
    · rw [htables]
      exact (interns_findTarget hfound).references hsound x
    · obtain ⟨x, t, rfl, ht, hlookup⟩ := lookup_of_findTarget htarget hfound
      have hvalid := isValid_of_findTarget hsound hfound
      obtain ⟨t', ht', hin⟩ := HandleTables.isValid_iff_table.mp hvalid
      rw [show tables'.get? r.entity = some t from ht, Option.some.injEq] at ht'
      exact ⟨x, t, rfl, htables ▸ ht, hlookup, ht' ▸ hin⟩
  · rintro ticket q name t x tables' hq ht hname rfl hdecline
    obtain ⟨c', hstep, hturned⟩ := step_lookupFound_of_declines hq ht hname hdecline
    have htables : c'.tables = c.tables.set q.request.entity (t.resolve name).2 := hturned.tables
    refine ⟨c', hstep, hturned, fun y => ?_, ?_⟩
    · rw [htables]
      exact (HandleTables.interns_resolve ht name).references hsound y
    · rw [htables]
      exact HandleTables.isValid_of_resolve hsound ht hname

/-- A connection with a contact list and no other manager, without handles for groups. -/
def contactsOnly : Connection Empty MemoryRoster :=
  .new ⟨"sample", "account", [], [], none, false, fun _ _ _ => none⟩ .standard
    ⟨.onDemand .contact, none, some (.onDemand .list), none⟩
    [.contacts (MemoryRoster.server ⟨true, true, false, true, .none⟩ [] false) .empty]

/-- The connection becomes connected. -/
def connecting : List (Operation Empty MemoryRoster) :=
  [.setSelf (.id "user"), .changeStatus .connected .requested]

/-- The properties of a text channel with somebody or something of a name. -/
def textWith (entity : EntityType) (id : String) : PropertyMap :=
  .ofList [(Property.channelType, .text "text"), (Property.targetEntity, .nat entity.wire),
    (Property.targetId, .text id)]

/-- A contact list declines every channel of another type. -/
theorem declines_of_channelType {server : ContactServer ρ} {list : ContactList} {data : ρ}
    {request : ChannelRequest} (h : request.channelType ≠ Property.contactListType) :
    (Manager.contacts server list data : Manager σ ρ).Declines request := by
  have hoffer : ∀ s : ContactScene ρ, s.offer server request = (.declined, s) := fun s => by
    rw [ContactScene.offer, if_pos h]
  refine ⟨fun tables => ?_, fun tables report => ?_, fun tables => ?_⟩ <;>
    simp [Manager.offer, hoffer, Manager.close, Manager.references]

/-- Text channels with a group and with a contact are requested: one of them is refused at once, and
the other is declined, after which the contact has a handle that nobody holds. -/
theorem contactsOnly_declines_text :
    ∃ c message c' x t, contactsOnly.run connecting = .ok c ∧
      c.step (.request ⟨1⟩ .create (textWith .group "friends")) = .ok (.ok .nothing,
        { c with log := c.log ++ [.answered ⟨1⟩ (.failed ⟨.notImplemented, message⟩)] }) ∧
      c.step (.request ⟨2⟩ .create (textWith .contact "ann")) = .ok (.ok .nothing, c') ∧
      c'.tables.contact = t ∧ t.lookup "ann" = some x ∧
      ∀ r, c'.tables.referencesTo r = c.tables.referencesTo r := by
  have hfresh : HandleTables.Fresh ⟨.onDemand .contact, none, some (.onDemand .list), none⟩ := by
    intro e t ht
    cases e <;> cases ht
    · exact .withNormaliser .contact _
    · exact .withNormaliser .list _
  let friends : ValidRequest := ⟨.create, "text", .group, .id "friends", textWith .group "friends"⟩
  let ann : ValidRequest := ⟨.create, "text", .contact, .id "ann", textWith .contact "ann"⟩
  have hvalid : ∀ {p : PropertyMap} {r : ValidRequest},
      ((p.validate .create).toOption.any (· = r)) = true → p.Requests .create r := by
    intro p r h
    obtain ⟨r', hr', heq⟩ := Except.eq_ok_of_any h
    exact of_decide_eq_true heq ▸ PropertyMap.validate_eq_ok_iff.mp hr'
  have hfriends : (textWith .group "friends").Requests .create friends := hvalid (by decide +kernel)
  have hann : (textWith .contact "ann").Requests .create ann := hvalid (by decide +kernel)
  have heval : ((contactsOnly.run connecting).toOption.any fun c =>
      c.status = .connected && c.tables.group.isNone &&
        (c.findTarget ann).toOption.any fun _ => true) = true := by decide +kernel
  obtain ⟨c, hrun, hc⟩ := Except.eq_ok_of_any heval
  rw [Bool.and_eq_true, Bool.and_eq_true, decide_eq_true_iff] at hc
  obtain ⟨⟨hstatus, hgroup⟩, hfound⟩ := hc
  obtain ⟨⟨target, tables'⟩, hfound, -⟩ := Except.eq_ok_of_any hfound
  obtain ⟨hrefuses, -, hdeclines, -⟩ := run_refuses_without_trace _ _ _ hfresh hrun
  obtain ⟨message, hfirst⟩ := hrefuses ⟨1⟩ .create _ _
    (.noTable hstatus hfriends (by simp [friends]) (Option.isNone_iff_eq_none.mp hgroup))
  have hdecline : c.AllDecline ((c.withTables tables').offering ann target) := by
    intro seat m hm
    cases m with
    | custom b state => exact state.elim
    | contacts server list data =>
      have htext : "text" ≠ Property.contactListType := by decide
      exact declines_of_channelType htext
  obtain ⟨c', hsecond, -, hreferences, hinterned⟩ :=
    hdeclines ⟨2⟩ .create _ ann target tables' hstatus hann hfound hdecline
  obtain ⟨x, t, -, ht, hlookup, -⟩ := hinterned "ann" rfl
  exact ⟨c, message, c', x, t, hrun, hfirst, hsecond, Option.some.inj ht, hlookup, hreferences⟩

end Connection

end Telepathy

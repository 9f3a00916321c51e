import Telepathy.Proofs.Connection.Refusals
import Telepathy.Proofs.Connection.Waiting
import Telepathy.Proofs.Request.Normalised

set_option autoImplicit false

/-!
# What managers are asked for

A request whose target is found, at once or after a lookup, is offered to the managers in normal
form. A client who submits these properties later gets the same request offered again: the handle
still stands for the same identifier, unless handles were collected in between.
-/

namespace Telepathy

variable {σ ρ : Type}

namespace Connection

variable {start c c₁ : Connection σ ρ} {op : Operation σ ρ} {r : ValidRequest}
  {target : Option Handle} {tables : HandleTables} {request : ChannelRequest}

/-! ## Parked requests -/

theorem Stage.parks (h : Stage start op c c₁) : op.ParksOnly c.ledger c₁.ledger := by
  have hbus : ∀ {c₁ : Connection σ ρ}, c.OnBus c₁ → op.ParksOnly c.ledger c₁.ledger := by
    intro c₁ h
    rw [h.frame]
    exact .refl _
  cases h with
  | turn hm ht hturn => exact .of_parked (congrArg (·.parked) (takeTurn_eq_ok hturn).1)
  | settle hop hsettle => exact .of_parked (congrArg (·.parked) (settle_eq_ok hsettle).1)
  | register hop => exact hbus (onBus_register c)
  | loseName hop => exact hbus (onBus_loseName c)
  | losePath hop => exact hbus (onBus_losePath c)
  | leave hstatus hover => exact hbus (onBus_leave c)
  | account hevolves hexchanges hkeeps hparks => exact hparks
  | _ => exact .refl _

theorem parks_step {out : StepOutcome σ ρ} (h : c.step op = .ok out) :
    op.ParksOnly c.ledger out.2.ledger :=
  (stages_step h).rel (R := fun c c₁ => op.ParksOnly c.ledger c₁.ledger) (fun _ => .refl _)
    .trans Stage.parks

/-- Whatever is parked after a run was parked before, or one of the operations parked it. -/
theorem parks_run {ops : List (Operation σ ρ)} (h : c.run ops = .ok c₁) {ticket : LookupTicket}
    {q : ParkedRequest} (hq : c₁.ledger.parked.get? ticket = some q) :
    c.ledger.parked.get? ticket = some q ∨ ∃ op ∈ ops, op.Parks q := by
  induction ops generalizing c with
  | nil =>
    cases h
    exact .inl hq
  | cons op ops ih =>
    obtain ⟨out, hout, hrest⟩ := run_cons.mp h
    rcases ih hrest with hbefore | ⟨op', hop', hparks⟩
    · rcases parks_step hout ticket q hbefore with hfirst | hparks
      · exact .inl hfirst
      · exact .inr ⟨op, List.mem_cons_self, hparks⟩
    · exact .inr ⟨op', List.mem_cons_of_mem op hop', hparks⟩

/-- Every parked request was made by a client, and is well-formed. -/
theorem run_parked {backend : Backend} {config : Config} {tables : HandleTables}
    {plans : List (ManagerPlan σ ρ)} {ops : List (Operation σ ρ)}
    (hrun : (new backend config tables plans).run ops = .ok c) {ticket : LookupTicket}
    {q : ParkedRequest} (hq : c.ledger.parked.get? ticket = some q) :
    .request q.call q.request.method q.request.properties ∈ ops ∧
      q.request.properties.Requests q.request.method q.request := by
  rcases parks_run hrun hq with hempty | ⟨_, hmem, method, properties, rfl, hvalid⟩
  · rw [show (new backend config tables plans).ledger.parked = .empty from rfl,
      SortedMap.get?_empty] at hempty
    cases hempty
  · have hr := PropertyMap.validate_eq_ok_iff.mp hvalid
    rw [hr.method, hr.properties]
    exact ⟨hmem, hr⟩

/-! ## Targets that are found -/

/-- In the course of an operation the target of a request is found in the tables: its handle is in
use, its identifier is given a handle, or a lookup ends with a handle of the table it was for. -/
inductive Resolves (c : Connection σ ρ) :
    Operation σ ρ → ValidRequest → Option Handle → HandleTables → Prop
  | found {call : CallId} {method : RequestMethod} {p : PropertyMap} {r : ValidRequest}
      {target : Option Handle} {tables : HandleTables} (hstatus : c.status = .connected)
      (hr : p.validate method = .ok r) (h : c.findTarget r = .ok (target, tables)) :
      Resolves c (.request call method p) r target tables
  | lookedUp {ticket : LookupTicket} {q : ParkedRequest} {name : ContactName} {t : HandleTable}
      {x : Handle} (hq : c.ledger.parked.get? ticket = some q)
      (ht : c.tables.get? q.request.entity = some t) (hname : (t.resolve name).1 = .ok x) :
      Resolves c (.lookupFound ticket q.request.entity name) q.request (some x)
        (c.tables.set q.request.entity (t.resolve name).2)

namespace Resolves

theorem interns (h : c.Resolves op r target tables) : c.tables.Interns tables := by
  cases h with
  | found hstatus hr h => exact interns_findTarget h
  | @lookedUp _ _ name _ _ hq ht hname => exact HandleTables.interns_resolve ht name

theorem isValid (h : c.Resolves op r target tables) (hsound : c.tables.Sound) :
    ∀ x, target = some x → tables.isValid ⟨r.entity, x⟩ = true := by
  cases h with
  | found hstatus hr h =>
    rintro x rfl
    exact isValid_of_findTarget hsound h
  | lookedUp hq ht hname =>
    rintro _ ⟨⟩
    exact HandleTables.isValid_of_resolve hsound ht hname

theorem ne_collect (h : c.Resolves op r target tables) : op ≠ .collect := by
  cases h <;> simp

/-- It is a request that a client made, now or before. -/
theorem supplied {backend : Backend} {config : Config} {tables₀ : HandleTables}
    {plans : List (ManagerPlan σ ρ)} {ops : List (Operation σ ρ)}
    (hrun : (new backend config tables₀ plans).run ops = .ok c)
    (h : c.Resolves op r target tables) :
    (∃ call, .request call r.method r.properties ∈ ops ++ [op]) ∧
      r.properties.Requests r.method r := by
  cases h with
  | @found call method p _ _ _ hstatus hr h =>
    have hr := PropertyMap.validate_eq_ok_iff.mp hr
    rw [hr.method, hr.properties]
    exact ⟨⟨call, by simp⟩, hr⟩
  | lookedUp hq ht hname =>
    obtain ⟨hmem, hr⟩ := run_parked hrun hq
    exact ⟨⟨_, List.mem_append_left _ hmem⟩, hr⟩

/-- A target is found exactly if one is named. -/
theorem target_eq_none (h : c.Resolves op r target tables)
    (hr : r.properties.Requests r.method r) : target = none ↔ r.target = .none := by
  cases h with
  | found hstatus hr' h =>
    unfold findTarget at h
    split at h
    case h_1 hnone =>
      cases h
      simp [hnone]
    case h_2 x hhandle =>
      obtain ⟨x', -, heq⟩ := Except.map_eq_ok.mp h
      cases heq
      simp [hhandle]
    case h_3 id hid =>
      obtain ⟨x', -, heq⟩ := Except.map_eq_ok.mp h
      cases heq
      simp [hid]
  | @lookedUp _ q _ t _ hq ht hname =>
    -- There is a table of the entity type, so it is not none.
    have hentity : q.request.entity ≠ .none := by
      intro hnone
      rw [hnone] at ht
      cases ht
    rw [hr.targeted]
    simp [hentity]

/-- The request is presented to the managers with these tables. -/
theorem step (h : c.Resolves op r target tables) : ∃ call ledger,
    ledger.tokens = c.ledger.tokens ∧
      c.step op = ({ c with tables, ledger }.present call r target).map quietly := by
  cases h with
  | @found call _ _ _ _ _ hstatus hr h =>
    have hr := PropertyMap.validate_eq_ok_iff.mp hr
    exact ⟨call, c.ledger, rfl, step_request_of_found call hstatus hr h⟩
  | @lookedUp ticket q _ _ _ hq ht hname =>
    exact ⟨q.call, { c.ledger with parked := c.ledger.parked.erase ticket }, rfl,
      step_lookupFound_of_found hq ht hname⟩

end Resolves

/-! ## Offers -/

/-- The offers among some events. -/
def offersIn (log : List Event) : List (Nat × ChannelRequest) :=
  log.filterMap fun e =>
    match e with
    | .offered seat r => some (seat, r)
    | _ => none

/-- The events up to the end of a computation, whether it ends well or in a crash. -/
def logAfter {α : Type} (log : α → List Event) : Except Crash α → List Event
  | .ok a => log a
  | .error crash => crash.log

/-- Managers were asked for this request and no other, one after the other from the first on. -/
def Asks (c : Connection σ ρ) (request : ChannelRequest) (log : List Event) : Prop :=
  ∃ seats, seats <+: c.seats ∧ (c.managers ≠ [] → seats ≠ []) ∧
    offersIn log = c.offers ++ seats.map (·, request)

theorem logAfter_map {α β : Type} (log : β → List Event) (f : α → β) (x : Except Crash α) :
    logAfter log (x.map f) = logAfter (fun a => log (f a)) x := by
  cases x <;> rfl

/-- Nobody is asked for anything while a manager does what it wants done, up to a promise that it
breaks. -/
theorem offers_performAll_crash {seat : Nat} {effects : List Effect} {crash : Crash}
    (h : effects.foldlM (perform seat) c = .error crash) : offersIn crash.log = c.offers := by
  induction effects generalizing c with
  | nil => cases h
  | cons e effects ih =>
    rw [List.foldlM_cons] at h
    rcases Except.bind_eq_error.mp h with hfirst | ⟨c', hfirst, hrest⟩
    · have hlog : crash.log = c.log := by
        cases e with
        | report report =>
          simp only [perform, settle] at hfirst
          cases hsettle : c.ledger.settle c.names.path report with
          | ok s =>
            rw [hsettle] at hfirst
            cases hfirst
          | error fault =>
            rw [hsettle] at hfirst
            cases hfirst
            rfl
        | signal path s => cases hfirst
        | called call => cases hfirst
      rw [hlog]
      rfl
    · rw [ih hrest, (perform_eq_ok hfirst).2.2]

theorem offers_takeTurn_crash {seat : Nat} {t : Turn σ ρ} {crash : Crash}
    (h : c.takeTurn seat t = .error crash) : offersIn crash.log = c.offers := by
  have hperform : t.effects.foldlM (perform seat)
      { c with managers := c.managers.set seat t.manager, tables := t.tables } = .error crash := h
  have hoffers := offers_performAll_crash hperform
  exact hoffers

/-- Whatever comes of it, one manager is asked. -/
theorem offers_offerAt {seat : Nat} (hseat : seat < c.managers.length)
    (request : ChannelRequest) :
    offersIn (logAfter (fun out => out.2.log) (c.offerAt request seat)) =
      c.offers ++ [(seat, request)] := by
  cases hoffer : c.offerAt request seat with
  | ok out =>
    obtain ⟨o, c₁⟩ := out
    rcases offerAt_cases hoffer with ⟨hnone, -, -⟩ | ⟨m, -, -, -, -, hoffers⟩
    · rw [List.getElem?_eq_none_iff] at hnone
      omega
    · exact hoffers
  | error crash =>
    unfold offerAt at hoffer
    rw [List.getElem?_eq_getElem hseat] at hoffer
    have hcrash : (c.record [.offered seat request]).takeTurn seat
        (c.managers[seat].offer c.tables request).2 = .error crash := by
      simp only at hoffer
      generalize (c.record [.offered seat request]).takeTurn seat _ = turned at hoffer
      cases turned with
      | ok c' => cases hoffer
      | error crash' =>
        cases hoffer
        rfl
    exact (offers_takeTurn_crash hcrash).trans (offers_offered c seat request)

/-- Managers are asked one after the other. -/
theorem offers_offerTo {seats : List Nat} (hseats : ∀ seat ∈ seats, seat < c.managers.length)
    (request : ChannelRequest) : ∃ asked, asked <+: seats ∧ (seats ≠ [] → asked ≠ []) ∧
      offersIn (logAfter (fun out => out.2.log) (c.offerTo request seats)) =
        c.offers ++ asked.map (·, request) := by
  induction seats generalizing c with
  | nil => exact ⟨[], List.prefix_rfl, by simp, by simp [offerTo, logAfter]; rfl⟩
  | cons seat seats ih =>
    have hfirst := offers_offerAt (hseats seat List.mem_cons_self) request
    cases hoffer : c.offerAt request seat with
    | error crash =>
      rw [hoffer] at hfirst
      refine ⟨[seat], by simp, by simp, ?_⟩
      simp only [offerTo, hoffer, bind, Except.bind]
      exact hfirst
    | ok out =>
      obtain ⟨o, c'⟩ := out
      rw [hoffer] at hfirst
      cases o with
      | accepted =>
        refine ⟨[seat], by simp, by simp, ?_⟩
        simp only [offerTo, hoffer, bind, Except.bind]
        exact hfirst
      | declined =>
        have hlength : c'.managers.length = c.managers.length := by
          rcases offerAt_cases hoffer with ⟨-, -, rfl⟩ | ⟨m, -, -, -, hmanagers, -⟩
          · rfl
          · rw [hmanagers, List.length_set]
        obtain ⟨asked, hprefix, -, hrest⟩ := ih (c := c') fun seat' hseat' => by
          rw [hlength]
          exact hseats seat' (List.mem_cons_of_mem seat hseat')
        refine ⟨seat :: asked, List.cons_prefix_cons.mpr ⟨rfl, hprefix⟩, by simp, ?_⟩
        simp only [offerTo, hoffer, bind, Except.bind]
        have hfirst : c'.offers = c.offers ++ [(seat, request)] := hfirst
        rw [hrest, hfirst, List.append_assoc]
        rfl

theorem offers_refuse (c : Connection σ ρ) (request : ChannelRequest) :
    (c.refuse request).offers = c.offers := by
  unfold refuse
  split
  · rfl
  · exact offers_record _ (by simp)

/-- A request that is presented is offered as its managers are asked, and not again. -/
theorem offers_present (call : CallId) (r : ValidRequest) (target : Option Handle) :
    offersIn (logAfter (·.log) (c.present call r target)) =
      offersIn (logAfter (fun out => out.2.log)
        ((c.tracking call r target).offerTo (c.offering r target) c.seats)) := by
  rw [present_eq]
  generalize (c.tracking call r target).offerTo (c.offering r target) c.seats = offered
  cases offered with
  | error crash => rfl
  | ok out =>
    obtain ⟨o, c'⟩ := out
    cases o with
    | accepted => rfl
    | declined => exact offers_refuse c' _

/-- What managers are asked for when a request is presented. -/
theorem asks_present (call : CallId) (r : ValidRequest) (target : Option Handle) :
    c.Asks (c.offering r target) (logAfter (·.log) (c.present call r target)) := by
  let tracked := c.tracking call r target
  have hseats : ∀ seat ∈ c.seats, seat < tracked.managers.length :=
    fun seat hseat => List.mem_range.mp hseat
  obtain ⟨asked, hprefix, hsome, hoffers⟩ := offers_offerTo hseats (c.offering r target)
  refine ⟨asked, hprefix, fun hmanagers => hsome (by simpa [seats] using hmanagers), ?_⟩
  exact (offers_present call r target).trans hoffers

/-! ## Requests in normal form -/

theorem Resolves.asks (h : c.Resolves op r target tables) :
    c.Asks ((c.withTables tables).offering r target)
      (logAfter (fun out => out.2.log) (c.step op)) := by
  obtain ⟨call, ledger, htokens, hstep⟩ := h.step
  let c' : Connection σ ρ := { c with tables, ledger }
  have hoffering : c'.offering r target = (c.withTables tables).offering r target := by
    simp only [c', offering, withTables, RequestLedger.nextToken, htokens]
  rw [hstep, logAfter_map, ← hoffering]
  exact asks_present (c := c') call r target

/-- The tables keep the target and everything else in use while managers are asked. -/
theorem Resolves.upkeep (h : c.Resolves op r target tables) (hsound : c.tables.Sound)
    {out : StepOutcome σ ρ} (hstep : c.step op = .ok out) :
    Upkeep False (c.withTables tables) out.2 := by
  obtain ⟨call, ledger, htokens, hpresented⟩ := h.step
  obtain ⟨c', hpresent, rfl⟩ := Except.map_eq_ok.mp (hpresented.symm.trans hstep)
  let c₀ : Connection σ ρ := { c with tables, ledger }
  have hstages : Stages c op c₀ c' :=
    stages_present (Nat.le_of_eq htokens.symm) (fun _ => h.isValid hsound) hpresent
  have hupkeep : Upkeep (op = .collect) c₀ c' :=
    hstages.rel Upkeep.refl Upkeep.trans Stage.upkeep
  have hupkeep' := hupkeep.mono h.ne_collect
  exact ⟨hupkeep'.evolves, hupkeep'.gone, hupkeep'.keeps⟩

/-- A handle in use is found as the target of a request that names it. -/
theorem findTarget_of_isValid
    (hvalid : ∀ x, target = some x → c.tables.isValid ⟨r.entity, x⟩ = true)
    (htarget : r.target = target.elim .none .handle) : c.findTarget r = .ok (target, c.tables) := by
  cases target with
  | none => rw [findTarget, htarget]; rfl
  | some x =>
    obtain ⟨t, ht, hin⟩ := HandleTables.isValid_iff_table.mp (hvalid x rfl)
    rw [findTarget_of_handle htarget ht, if_pos hin]

/-- A request whose target is found is offered to managers in normal form: its properties are those
that a client supplied, but that the target is named by its handle, and the identifier is that of
the handle. Since handles are 32-bit words, these properties are a well-formed request for the same
target; and whoever submits them while the handle was not collected has the same request offered
again, under another token. -/
theorem run_normalises_requests (backend : Backend) (config : Config) {tables : HandleTables}
    (plans : List (ManagerPlan σ ρ)) (hfresh : tables.Fresh) {ops : List (Operation σ ρ)}
    {c : Connection σ ρ} (hrun : (new backend config tables plans).run ops = .ok c)
    {op : Operation σ ρ} {r : ValidRequest} {target : Option Handle} {tables' : HandleTables}
    (hresolves : c.Resolves op r target tables') :
    let request := (c.withTables tables').offering r target
    c.Asks request (logAfter (fun out => out.2.log) (c.step op)) ∧
    (∃ call, .request call r.method r.properties ∈ ops ++ [op]) ∧
    r.properties.validate r.method = .ok r ∧
    request.Normalises r.properties ∧
    (∀ x, target = some x → ∃ t id, tables'.get? r.entity = some t ∧ t.inspect x = some id ∧
      request.targetId = some id) ∧
    ((∀ x, target = some x → x.number < Value.wordLimit) →
      (∀ method, request.properties.validate method = .ok (request.restated method)) ∧
      ∀ out ops' c', c.step op = .ok out → out.2.run ops' = .ok c' → .collect ∉ ops' →
        c'.status = .connected → ∀ call method,
          c'.Asks { request with token := c'.ledger.nextToken, method }
            (logAfter (fun out => out.2.log)
              (c'.step (.request call method request.properties)))) := by
  intro request
  have hsound := sound_run hfresh hrun
  obtain ⟨hsupplied, hr⟩ := hresolves.supplied hrun
  have htarget := hresolves.target_eq_none hr
  have hvalid := hresolves.isValid hsound
  refine ⟨hresolves.asks, hsupplied, PropertyMap.validate_eq_ok_iff.mpr hr,
    ChannelRequest.normalises_new hr htarget.mp _ _, ?_, fun hword => ?_⟩
  · rintro x rfl
    obtain ⟨t, ht, hin⟩ := HandleTables.isValid_iff_table.mp (hvalid x rfl)
    obtain ⟨id, hid⟩ := HandleTable.isValid_iff.mp hin
    exact ⟨t, id, ht, hid, HandleTables.inspect_eq_some.mpr ⟨t, ht, hid⟩⟩
  · have hrevalidates : ∀ method,
        request.properties.validate method = .ok (request.restated method) := fun method =>
      PropertyMap.validate_eq_ok_iff.mpr
        (ChannelRequest.requests_restated hr htarget hword _ _ method)
    refine ⟨hrevalidates, fun out ops' c' hstep hrun' hcollect hstatus call method => ?_⟩
    have hupkeep : Upkeep False (c.withTables tables') c' :=
      (hresolves.upkeep hsound hstep).trans ((upkeep_run hrun').mono hcollect)
    have hkept : ∀ x, target = some x → c'.tables.isValid ⟨r.entity, x⟩ = true ∧
        c'.tables.inspect ⟨r.entity, x⟩ = tables'.inspect ⟨r.entity, x⟩ := fun x hx =>
      hupkeep.inspect (hresolves.interns.sound hsound) id (by rw [hstatus]; simp) (hvalid x hx)
    have hfound : c'.findTarget (request.restated method) = .ok (target, c'.tables) :=
      findTarget_of_isValid (fun x hx => (hkept x hx).1) rfl
    have hagain : c'.Resolves (.request call method request.properties)
        (request.restated method) target c'.tables := .found hstatus (hrevalidates method) hfound
    -- The handle has the identifier it had, so it is the same request.
    have hid : (target.map (Reference.mk r.entity)).bind c'.tables.inspect =
        (target.map (Reference.mk r.entity)).bind tables'.inspect := by
      cases target with
      | none => rfl
      | some x => exact (hkept x rfl).2
    have hsame : (c'.withTables c'.tables).offering (request.restated method) target =
        { request with token := c'.ledger.nextToken, method } := by
      rw [offering, show (request.restated method).entity = r.entity from rfl]
      exact (congrArg _ hid).trans (ChannelRequest.new_restated r target _ _ _ method)
    rw [← hsame]
    exact hagain.asks

/-- The properties of a text channel with the contact whose handle is 2. -/
def textWithSecond : PropertyMap :=
  .ofList [(Property.channelType, .text "text"), (Property.targetEntity, .nat 1),
    (Property.targetHandle, .nat 2)]

/-- A manager that is the only one is asked. -/
theorem offers_of_asks (hone : c.managers.length = 1) {out : StepOutcome σ ρ}
    (h : c.Asks request (logAfter (fun out => out.2.log) (.ok out))) :
    out.2.offers = c.offers ++ [(0, request)] := by
  obtain ⟨seats, hprefix, hsome, hoffers⟩ := h
  have hsome : seats ≠ [] := hsome fun hnone => by simp [hnone] at hone
  rw [Connection.seats, hone] at hprefix
  rcases List.prefix_cons_iff.mp hprefix with hnone | ⟨rest, rfl, hrest⟩
  · exact absurd hnone hsome
  · rw [List.prefix_nil.mp hrest] at hoffers
    exact hoffers

/-- A text channel with Ann is requested, by her name and then by the properties that the manager
was asked for. -/
theorem ann_asked_again :
    ∃ c out out' request, contactsOnly.run connecting = .ok c ∧
      c.step (.request ⟨1⟩ .create (textWith .contact "ann")) = .ok out ∧
      out.2.offers = c.offers ++ [(0, request)] ∧
      request.properties = textWithSecond ∧ request.targetId = some "ann" ∧
      out.2.step (.request ⟨2⟩ .ensure textWithSecond) = .ok out' ∧
      out'.2.offers = out.2.offers ++ [(0, { request with token := ⟨2⟩, method := .ensure })] := by
  have hfresh : HandleTables.Fresh ⟨.onDemand .contact, none, some (.onDemand .list), none⟩ := by
    intro e t ht
    cases e <;> cases ht
    · exact .withNormaliser .contact _
    · exact .withNormaliser .list _
  let ann : ValidRequest := ⟨.create, "text", .contact, .id "ann", textWith .contact "ann"⟩
  let second : Handle := ⟨2, by decide⟩
  have hvalid : (textWith .contact "ann").validate .create = .ok ann := by
    have hany : ((textWith .contact "ann").validate .create).toOption.any (· = ann) = true := by
      decide +kernel
    obtain ⟨r, hr, heq⟩ := Except.eq_ok_of_any hany
    rw [hr, of_decide_eq_true heq]
  have hproperties : ChannelRequest.resolvedProperties ann.properties ann.entity (some second) =
      textWithSecond := by decide +kernel
  have heval : ((contactsOnly.run connecting).toOption.any fun c =>
      decide (c.status = .connected ∧ c.managers.length = 1) &&
        ((c.findTarget ann).toOption.any fun found =>
          decide (found.1 = some second ∧ found.2.inspect ⟨.contact, second⟩ = some "ann")) &&
        (c.step (.request ⟨1⟩ .create (textWith .contact "ann"))).toOption.any fun out =>
          decide (out.2.status = .connected ∧ out.2.managers.length = 1 ∧
            out.2.ledger.nextToken = ⟨2⟩) &&
          (out.2.step (.request ⟨2⟩ .ensure textWithSecond)).toOption.any fun _ => true) =
      true := by
    decide +kernel
  obtain ⟨c, hrun, hc⟩ := Except.eq_ok_of_any heval
  simp only [Bool.and_eq_true, decide_eq_true_iff] at hc
  obtain ⟨⟨⟨hstatus, hone⟩, hfound⟩, hout⟩ := hc
  obtain ⟨⟨target, tables'⟩, hfound, htarget⟩ := Except.eq_ok_of_any hfound
  obtain ⟨rfl, hid⟩ := of_decide_eq_true htarget
  obtain ⟨out, hstep, hafter⟩ := Except.eq_ok_of_any hout
  simp only [Bool.and_eq_true, decide_eq_true_iff] at hafter
  obtain ⟨⟨hstatus', hone', htoken⟩, hagain⟩ := hafter
  obtain ⟨out', hstep', -⟩ := Except.eq_ok_of_any hagain
  obtain ⟨hasks, -, -, -, -, hrevalidates⟩ :=
    run_normalises_requests _ _ _ hfresh hrun (.found hstatus hvalid hfound)
  have hword : ∀ x, some second = some x → x.number < Value.wordLimit := by
    rintro _ ⟨⟩
    decide
  obtain ⟨-, hresubmits⟩ := hrevalidates hword
  have hasked := hresubmits out [] out.2 hstep rfl List.not_mem_nil hstatus' ⟨2⟩ .ensure
  have hrequest : ((c.withTables tables').offering ann (some second)).properties = textWithSecond :=
    hproperties
  rw [hrequest, hstep', htoken] at hasked
  rw [hstep] at hasks
  exact ⟨c, out, out', _, hrun, hstep, offers_of_asks hone hasks, hproperties, hid, hstep',
    offers_of_asks hone' hasked⟩

end Connection

end Telepathy

import Telepathy.Proofs.Connection.Owners

set_option autoImplicit false

/-!
# At most one owner for each channel of a contact list

Which requests insist on a new channel can be read off what managers were asked for so far. In every
run the lines of a contact list are in order: such a request is the first in its line, which is that
of a group. So whatever an operation makes a contact list announce, at most one of those who are
answered is told to own a channel, and one is if anybody who waited for it asked for a new channel
or for any. Managers of the application's own may announce what they like in between, and report on
any requests.
-/

namespace Telepathy

theorem PropertyMap.method_of_validate {p : PropertyMap} {method : RequestMethod} {r : ValidRequest}
    (h : p.validate method = .ok r) : r.method = method := by
  obtain ⟨channelType, -, h⟩ := Except.bind_eq_ok.mp h
  obtain ⟨entity, -, h⟩ := Except.bind_eq_ok.mp h
  obtain ⟨handle, -, h⟩ := Except.bind_eq_ok.mp h
  obtain ⟨id, -, h⟩ := Except.bind_eq_ok.mp h
  obtain ⟨-, -, h⟩ := Except.bind_eq_ok.mp h
  obtain ⟨target, -, h⟩ := Except.bind_eq_ok.mp h
  cases h
  rfl

namespace Connection

variable {σ ρ : Type} {c c₁ : Connection σ ρ} {kinds : List Bool} {due : PendingRequest → Prop}

/-- Some manager was asked for a new channel under a token. -/
def Insists (c : Connection σ ρ) (token : RequestToken) : Prop :=
  ∃ o ∈ c.offers, o.2.token = token ∧ o.2.method = .create

/-- A token insists on a new channel already, or is that of a request for one. -/
def InsistsWith (c : Connection σ ρ) (r : ChannelRequest) (token : RequestToken) : Prop :=
  c.Insists token ∨ token = r.token ∧ r.method = .create

/-- The call and the method of the request that is presented in the course of an operation. -/
def requested? (c : Connection σ ρ) : Operation σ ρ → Option (CallId × RequestMethod)
  | .request call method _ => some (call, method)
  | .lookupFound ticket _ _ =>
    (c.ledger.parked.get? ticket).map fun p => (p.call, p.request.method)
  | _ => none

/-- A request that an operation can answer: it is in flight already or is presented now. -/
def Due (c : Connection σ ρ) (op : Operation σ ρ) (p : PendingRequest) : Prop :=
  (∃ token, c.ledger.inFlight.get? token = some p) ∨ c.requested? op = some (p.call, p.method)

/-- The lines of all contact lists are in order, and managers were asked under tokens of the past
only. -/
structure WellOrdered (kinds : List Bool) (due : PendingRequest → Prop) (c : Connection σ ρ) :
    Prop where
  ordered : Ordered kinds due c.Insists c
  offered : ∀ o ∈ c.offers, o.2.token.number ≤ c.ledger.tokens

/-- After an operation, or a stage of one, the lines are in order, and what contact lists have
announced has one owner at most, if the first manager that acts is that at the seat `first`. -/
structure Leads (kinds : List Bool) (due : PendingRequest → Prop) (first : Option Nat)
    (c c' : Connection σ ρ) : Prop where
  ordered : WellOrdered kinds due c'
  owned : ∃ events, c'.log = c.log ++ events ∧ Owned due (ListSpeaks kinds first) events

variable {first : Option Nat}

/-- What goes before does not matter if nothing happens. -/
theorem Leads.of_log {c c₁ c₂ : Connection σ ρ} (h : Leads kinds due first c₁ c₂)
    (hlog : c₁.log = c.log) : Leads kinds due first c c₂ := by
  obtain ⟨hordered, howned⟩ := h
  rw [hlog] at howned
  exact ⟨hordered, howned⟩

theorem insists_of_offers (h : c₁.offers = c.offers) : c₁.Insists = c.Insists := by
  funext token
  rw [Insists, Insists, h]

/-- Lines stay in order as tokens are issued and others insist. -/
theorem lined_transfer {insists insists' : RequestToken → Prop} {issued issued' : Nat}
    (h : AllManagers (Manager.OfLists fun _ list => list.Lined insists issued) c)
    (hmanagers : c₁.managers = c.managers) (hissued : issued ≤ issued')
    (hinsists : ∀ token, token.number ≤ issued → insists' token → insists token) :
    AllManagers (Manager.OfLists fun _ list => list.Lined insists' issued') c₁ := by
  intro seat m hm
  rw [hmanagers] at hm
  cases m with
  | custom b state => trivial
  | contacts server list data =>
    have hlist : list.Lined insists issued := h seat _ hm
    exact fun t ch hch => (hlist t ch hch).transfer hissued hinsists

namespace WellOrdered

/-- It is enough that nobody is asked for a channel and the lines are in order still. -/
theorem of_ordered (h : WellOrdered kinds due c) (hordered : Ordered kinds due c.Insists c₁)
    (hoffers : c₁.offers = c.offers) (htokens : c₁.ledger.tokens = c.ledger.tokens) :
    WellOrdered kinds due c₁ := by
  refine ⟨insists_of_offers hoffers ▸ hordered, ?_⟩
  rw [hoffers, htokens]
  exact h.offered

theorem undisturbed (h : WellOrdered kinds due c) (hc : c.Undisturbed c₁) :
    WellOrdered kinds due c₁ :=
  h.of_ordered (h.ordered.undisturbed hc) hc.offers hc.tokens

theorem withTables (h : WellOrdered kinds due c) (tables : HandleTables) :
    WellOrdered kinds due { c with tables } :=
  h.undisturbed ⟨rfl, rfl, rfl, rfl⟩

/-- Other requests are due if those in flight are. -/
theorem redue {due' : PendingRequest → Prop} (h : WellOrdered kinds due c)
    (hdue : ∀ token p, c.ledger.inFlight.get? token = some p → due' p) :
    WellOrdered kinds due' c where
  ordered := ⟨h.ordered.kinds, h.ordered.lined, fun token p hp =>
    ⟨hdue token p hp, (h.ordered.flight token p hp).2⟩⟩
  offered := h.offered

/-! ## Stages without requests -/

theorem of_goes (h : WellOrdered kinds due c) (hgoes : Goes kinds due c.Insists none c c₁) :
    Leads kinds due first c c₁ := by
  obtain ⟨more, hmore, hasked⟩ := hgoes.offers
  have hoffers : c₁.offers = c.offers := by
    cases more with
    | nil => rw [hmore, List.append_nil]
    | cons o more => cases hasked o List.mem_cons_self
  obtain ⟨events, hlog, howned, -⟩ := hgoes.speaks
  exact ⟨h.of_ordered hgoes.ordered hoffers hgoes.tokens, events, hlog, howned first⟩

theorem stay (h : WellOrdered kinds due c) : Leads kinds due first c c :=
  h.of_goes (.refl h.ordered)

/-- What one manager or none does is no matter of the contact lists unless it is one of them. -/
theorem of_unaddressed {events : List Event} (h : WellOrdered kinds due c₁)
    (hlog : c₁.log = c.log ++ events) (hnone : ∀ e ∈ events, e.addressee? = none)
    (hfirst : ∀ seat, first = some seat → kinds[seat]? ≠ some false) :
    Leads kinds due first c c₁ := by
  refine ⟨h, events, hlog, ?_⟩
  rintro before path channels later rfl ⟨seat, hspeaker, hlist⟩
  rw [speaker?_of_unaddressed fun e he => hnone e (List.mem_append_left _ he)] at hspeaker
  exact absurd hlist (hfirst seat hspeaker)

/-- An operation that managers do not notice and that tells none of them of a status. -/
theorem of_undisturbed (h : WellOrdered kinds due c) (hc : c.Undisturbed c₁)
    (hstays : c.Stays none c₁) : Leads kinds due none c c₁ := by
  obtain ⟨events, hlog, hordinary⟩ := hstays.events
  have hoffers : (c.record events).offers = c.offers := by
    have hsame := hc.offers
    rwa [offers, hlog] at hsame
  refine (h.undisturbed hc).of_unaddressed hlog (fun e he => ?_) fun seat hseat => by cases hseat
  cases e with
  | offered seat r =>
    rw [offers, record, List.filterMap_append] at hoffers
    have hnothing := List.filterMap_eq_nil_iff.mp (List.append_right_eq_self.mp hoffers) _ he
    cases hnothing
  | notified seat status => exact (hordinary _ he).elim
  | _ => rfl

/-! ## Requests -/

section Requests

variable {r : ChannelRequest} {p : PendingRequest} {tables : HandleTables}

/-- A request is put in flight. -/
theorem track (h : WellOrdered kinds due c) (htoken : r.token = c.ledger.nextToken)
    (hmethod : p.method = r.method) (hdue : due p) :
    Ordered kinds due (c.InsistsWith r) { c with ledger := c.ledger.track p, tables } := by
  refine ⟨h.ordered.kinds, ?_, fun token q hq => ?_⟩
  · refine lined_transfer h.ordered.lined rfl (Nat.le_succ _) fun token hold hinsists => ?_
    refine hinsists.resolve_right fun ⟨hthis, _⟩ => ?_
    rw [hthis, htoken] at hold
    exact Nat.not_succ_le_self _ hold
  · have hget : (c.ledger.inFlight.insert c.ledger.nextToken p).get? token = some q := hq
    rw [SortedMap.get?_insert] at hget
    split at hget
    case isTrue heq =>
      cases hget
      exact ⟨hdue, fun hcreate => .inr ⟨heq.trans htoken.symm, hmethod.symm.trans hcreate⟩⟩
    case isFalse =>
      obtain ⟨hwaits, hinsists⟩ := h.ordered.flight token q hget
      exact ⟨hwaits, fun hcreate => .inl (hinsists hcreate)⟩

/-- In the end a request is over, unless it was accepted and so offered to somebody. -/
theorem of_tracked (h : WellOrdered kinds due c) (htoken : r.token = c.ledger.nextToken)
    (hgoes : Goes kinds due (c.InsistsWith r) (some r)
      { c with ledger := c.ledger.track p, tables } c₁)
    (hoffered : c₁.ledger.isPending r.token = true → ∃ o ∈ c₁.offers, o.2 = r) :
    Leads kinds due first c c₁ := by
  obtain ⟨more, hmore, hasked⟩ := hgoes.offers
  have hmore : c₁.offers = c.offers ++ more := hmore
  have htokens : c₁.ledger.tokens = c.ledger.tokens + 1 := hgoes.tokens
  have hcases : ∀ o ∈ c₁.offers, o ∈ c.offers ∨ o.2 = r := fun o ho => by
    rw [hmore] at ho
    exact (List.mem_append.mp ho).imp_right fun ho => (Option.some.inj (hasked o ho)).symm
  have hinsists : ∀ token, c₁.Insists token → c.InsistsWith r token := by
    rintro token ⟨o, ho, rfl, hcreate⟩
    rcases hcases o ho with hbefore | hthis
    · exact .inl ⟨o, hbefore, rfl, hcreate⟩
    · rw [hthis] at hcreate ⊢
      exact .inr ⟨rfl, hcreate⟩
  obtain ⟨events, hlog, howned, -⟩ := hgoes.speaks
  have hlined :=
    lined_transfer hgoes.ordered.lined rfl (Nat.le_refl _) fun token _ => hinsists token
  refine ⟨⟨⟨hgoes.ordered.kinds, hlined, fun token q hq => ?_⟩, fun o ho => ?_⟩,
    events, hlog, howned first⟩
  · obtain ⟨hdue, hknown⟩ := hgoes.ordered.flight token q hq
    refine ⟨hdue, fun hcreate => ?_⟩
    rcases hknown hcreate with ⟨o, ho, heq⟩ | ⟨rfl, hmethod⟩
    · exact ⟨o, by rw [hmore]; exact List.mem_append_left _ ho, heq⟩
    · obtain ⟨o, ho, hthis⟩ := hoffered (RequestLedger.isPending_iff.mpr ⟨q, hq⟩)
      exact ⟨o, ho, by rw [hthis], by rw [hthis, hmethod]⟩
  · rw [htokens]
    rcases hcases o ho with hbefore | hthis
    · exact Nat.le_succ_of_le (h.offered o hbefore)
    · rw [hthis, htoken]
      exact Nat.le_refl _

end Requests

theorem present (h : WellOrdered kinds due c) {call : CallId} {v : ValidRequest}
    {target : Option Handle} (hdue : ∀ p, p.call = call → p.method = v.method → due p)
    (hpresent : c.present call v target = .ok c₁) : Leads kinds due first c c₁ := by
  obtain ⟨⟨o, asked⟩, hoffer, hpresent⟩ := Except.bind_eq_ok.mp hpresent
  let reference := target.map (Reference.mk v.entity)
  let r := ChannelRequest.new c.ledger.nextToken v target (reference.bind c.tables.inspect)
  let tracked : Connection σ ρ := { c with
    ledger := c.ledger.track ⟨call, v.method, reference⟩
    tables := c.tables.retainAll reference.toList }
  have hasks : c.InsistsWith r r.token → r.method = .create := by
    rintro (⟨o, ho, heq, -⟩ | ⟨-, hcreate⟩)
    · have hold := h.offered o ho
      rw [heq] at hold
      exact absurd hold (Nat.not_succ_le_self _)
    · exact hcreate
  have htracked : Ordered kinds due (c.InsistsWith r) tracked :=
    h.track rfl rfl (hdue _ rfl rfl)
  have hgoes : Goes kinds due (c.InsistsWith r) (some r) tracked asked :=
    htracked.offerTo (Nat.le_refl _) hasks hoffer
  cases o with
  | accepted =>
    cases hpresent
    exact h.of_tracked rfl hgoes fun _ => offered_of_accepted hoffer
  | declined =>
    cases hpresent
    refine h.of_tracked rfl (hgoes.trans (hgoes.ordered.refuse r)) fun hp => ?_
    rw [isPending_refuse] at hp
    cases hp

theorem resumeLookup (h : WellOrdered kinds due c) {ticket : LookupTicket} {target : Handle}
    {outcome : Except Error Unit}
    (hdue : ∀ p q, c.ledger.parked.get? ticket = some q → p.call = q.call →
      p.method = q.request.method → due p)
    (hresume : c.resumeLookup ticket target = .ok (outcome, c₁)) :
    Leads kinds due first c c₁ := by
  unfold Connection.resumeLookup at hresume
  split at hresume
  · cases hresume
    exact h.stay
  case h_2 p ledger hunpark =>
    obtain ⟨c', hpresent, heq⟩ := Except.bind_eq_ok.mp hresume
    cases heq
    obtain ⟨hparked, rfl⟩ := RequestLedger.unpark?_eq_some_iff.mp hunpark
    have htaken : WellOrdered kinds due
        { c with ledger := { c.ledger with parked := c.ledger.parked.erase ticket } } :=
      h.undisturbed ⟨rfl, rfl, rfl, rfl⟩
    exact (htaken.present (fun q => hdue q p hparked) hpresent).of_log rfl

theorem completeLookup (h : WellOrdered kinds due c) {ticket : LookupTicket} {entity : EntityType}
    {name : ContactName} {out : StepOutcome σ ρ}
    (hdue : ∀ p q, c.ledger.parked.get? ticket = some q → p.call = q.call →
      p.method = q.request.method → due p)
    (hfound : c.completeLookup ticket entity name = .ok out) : Leads kinds due first c out.2 := by
  unfold Connection.completeLookup at hfound
  split at hfound
  · cases hfound
    exact h.stay
  case h_2 t _ =>
    have htables := h.withTables (c.tables.set entity (t.resolve name).2)
    dsimp only at hfound
    split at hfound
    · cases hfound
      exact htables.stay.of_log rfl
    · obtain ⟨⟨outcome, c'⟩, hresume, rfl⟩ := Except.map_eq_ok.mp hfound
      exact (htables.resumeLookup hdue hresume).of_log rfl

theorem request (h : WellOrdered kinds due c) {call : CallId} {method : RequestMethod}
    {properties : PropertyMap} (hdue : ∀ p, p.call = call → p.method = method → due p)
    (hrequest : c.request call method properties = .ok c₁) : Leads kinds due none c c₁ := by
  have hfailed : ∀ e, Leads kinds due none c (c.answer call (.failed e)) := fun e =>
    h.of_goes (h.ordered.goes_record (by simp [Event.IsIdle]) (by simp))
  unfold Connection.request at hrequest
  split at hrequest
  · split at hrequest
    case h_1 v hvalid =>
      unfold Connection.submit at hrequest
      split at hrequest
      case h_1 target tables _ =>
        rw [← PropertyMap.method_of_validate hvalid] at hdue
        exact ((h.withTables tables).present hdue hrequest).of_log rfl
      · cases hrequest
        exact h.of_undisturbed (undisturbed_beginLookup c _ _ _ _) (stays_beginLookup c _ _ _ _)
      · cases hrequest
        exact hfailed _
    · cases hrequest
      exact hfailed _
  · cases hrequest
    exact hfailed _

/-! ## Operations on managers -/

/-- A report from elsewhere is answered, but it is no announcement of a contact list. -/
theorem settle (h : WellOrdered kinds due c) {r : Report} (hsettle : c.settle r = .ok c₁) :
    Leads kinds due none c c₁ := by
  obtain ⟨hledger, hmanagers, hoffers⟩ := settle_eq_ok hsettle
  have htokens : c₁.ledger.tokens = c.ledger.tokens := by rw [hledger]; rfl
  have hordered : Ordered kinds due c.Insists c₁ := by
    refine ⟨hmanagers ▸ h.ordered.kinds, ?_, hledger ▸ h.ordered.flight.without _⟩
    rw [htokens]
    exact lined_transfer h.ordered.lined hmanagers (Nat.le_refl _) fun _ _ => id
  obtain ⟨s, hs, rfl⟩ := settle_cases hsettle
  refine (h.of_ordered hordered hoffers htokens).of_unaddressed rfl (fun e he => ?_)
    fun seat hseat => by cases hseat
  obtain ⟨_, _, rfl, -⟩ | ⟨_, _, rfl, -⟩ := RequestLedger.mem_settle_events hs he <;> rfl

theorem changeManager (h : WellOrdered kinds due c) {seat : Nat} {f : σ → σ} {out : StepOutcome σ ρ}
    (hchange : c.changeManager seat f = .ok out) : Leads kinds due (some seat) c out.2 := by
  unfold Connection.changeManager at hchange
  split at hchange
  · cases hchange
    exact h.stay
  case h_2 turn hturn =>
    obtain ⟨m, hm, hturn⟩ := Option.bind_eq_some_iff.mp hturn
    obtain ⟨c', htaken, heq⟩ := Except.map_eq_ok.mp hchange
    cases heq
    cases m with
    | contacts server list data => cases hturn
    | custom b state =>
      cases hturn
      obtain ⟨hordered, htokens, hoffers⟩ := h.ordered.turn hm htaken rfl trivial
      have hquiet : c'.log = c.log := by
        cases htaken
        rfl
      exact h.of_goes (.of_offers hordered htokens hoffers (.of_log hquiet))

/-- The turn of a contact list in an operation that is about it. -/
theorem listTurn (h : WellOrdered kinds due c) {seat : Nat} {server : ContactServer ρ}
    {list : ContactList} {data : ρ} (hm : c.managers[seat]? = some (.contacts server list data))
    {s : ContactScene ρ} (hlined : s.list.Lined c.Insists c.ledger.tokens)
    (hfair : ∀ e ∈ s.effects, e.IsFair c.Insists)
    (hturn : c.takeTurn seat (Manager.close server s) = .ok c₁) : Leads kinds due first c c₁ :=
  h.of_goes (h.ordered.listTurn hm hlined hfair hturn)

theorem changeServer (h : WellOrdered kinds due c) {seat : Nat} {names : List ContactName}
    {f : SortedSet Handle → ρ → ρ} {out : StepOutcome σ ρ}
    (hchange : c.changeServer seat names f = .ok out) : Leads kinds due (some seat) c out.2 := by
  unfold Connection.changeServer at hchange
  split at hchange
  · cases hchange
    exact h.stay
  case h_2 m hlist =>
    have htables :=
      h.withTables { c.tables with contact := (c.tables.contact.resolveSet names).2 }
    have hm := managers_of_contactListAt hlist
    dsimp only at hchange
    split at hchange
    · cases hchange
      exact htables.stay.of_log rfl
    · cases m with
      | custom b state =>
        cases hchange
        exact htables.stay.of_log rfl
      | contacts server list data =>
        obtain ⟨c', hturn, heq⟩ := Except.map_eq_ok.mp hchange
        cases heq
        have hlined : list.Lined c.Insists c.ledger.tokens := h.ordered.lined seat _ hm
        exact (htables.listTurn hm (s := ⟨list, _, _, []⟩) hlined nofun hturn).of_log rfl

theorem performContacts (h : WellOrdered kinds due c) {seat : Nat}
    {op : ContactOperation (List ContactName)} {out : StepOutcome σ ρ}
    (hperform : c.performContacts seat op = .ok out) : Leads kinds due (some seat) c out.2 := by
  unfold Connection.performContacts at hperform
  split at hperform
  · cases hperform
    exact h.stay
  case h_2 m hlist =>
    have htables := h.withTables { c.tables with contact := (op.resolve c.tables.contact).2 }
    have hm := managers_of_contactListAt hlist
    dsimp only at hperform
    split at hperform
    · cases hperform
      exact htables.stay.of_log rfl
    case h_2 op' _ =>
      cases m with
      | custom b state =>
        cases hperform
        exact htables.stay.of_log rfl
      | contacts server list data =>
        obtain ⟨c', hturn, heq⟩ := Except.map_eq_ok.mp hperform
        cases heq
        let s : ContactScene ρ :=
          ⟨list, data, { c.tables with contact := (op.resolve c.tables.contact).2 }, []⟩
        have hbefore : s.list.Lined c.Insists c.ledger.tokens := h.ordered.lined seat _ hm
        have hafter : (s.perform server op').2.list.Lined c.Insists c.ledger.tokens ∧
            s.AddsFair c.Insists (s.perform server op').2 :=
          ContactScene.lined_perform op' hbefore
        obtain ⟨hlined, effects, heffects, hfair⟩ := hafter
        have hall : ∀ e ∈ (s.perform server op').2.effects, e.IsFair c.Insists := by
          rw [heffects]
          exact hfair
        exact (htables.listTurn hm hlined hall hturn).of_log rfl

/-! ## Runs -/

/-- Every operation leaves the lines in order, and makes contact lists announce only what has one
owner at most. -/
theorem step (h : WellOrdered kinds due c) {op : Operation σ ρ} {out : StepOutcome σ ρ}
    (hstep : c.step op = .ok out) : Leads kinds (c.Due op) op.seat? c out.2 := by
  replace h : WellOrdered kinds (c.Due op) c := h.redue fun token p hp => .inl ⟨token, hp⟩
  have hstays : op.isVital = false → c.Stays none out.2 := fun hop =>
    stays_step (allManagers_discreet_none c) hop hstep
  cases op with
  | connect =>
    obtain ⟨⟨outcome, c'⟩, hconnect, rfl⟩ := Except.map_eq_ok.mp hstep
    exact h.of_goes (h.ordered.connect hconnect)
  | disconnect call =>
    obtain ⟨c', hdisconnect, rfl⟩ := Except.map_eq_ok.mp hstep
    exact h.of_goes (h.ordered.disconnect hdisconnect)
  | changeStatus status reason =>
    obtain ⟨⟨outcome, c'⟩, hchange, rfl⟩ := Except.map_eq_ok.mp hstep
    exact h.of_goes (h.ordered.changeStatus hchange)
  | finishShutdown =>
    cases hstep
    exact h.of_goes
      (h.ordered.goes_undisturbed (undisturbed_finishShutdown c) (speaks_finishShutdown c))
  | request call method properties =>
    obtain ⟨c', hrequest, rfl⟩ := Except.map_eq_ok.mp hstep
    exact h.request (fun p hcall hmethod => .inr (by rw [requested?, hcall, hmethod])) hrequest
  | lookupFound ticket entity target =>
    refine h.completeLookup (fun p q hq hcall hmethod => .inr ?_) hstep
    rw [requested?, hq, hcall, hmethod]
    rfl
  | report r =>
    obtain ⟨c', hsettle, rfl⟩ := Except.map_eq_ok.mp hstep
    exact h.settle hsettle
  | changeManager seat f => exact h.changeManager hstep
  | changeServer seat names f => exact h.changeServer hstep
  | contacts seat op => exact h.performContacts hstep
  | register =>
    cases hstep
    exact h.of_undisturbed (undisturbed_register c) (hstays rfl)
  | setSelf contact =>
    cases hstep
    exact h.of_undisturbed (undisturbed_nameSelf c contact) (hstays rfl)
  | lookupFailed ticket e =>
    cases hstep
    exact h.of_undisturbed (undisturbed_failLookup c ticket e) (hstays rfl)
  | cancelLookup ticket =>
    cases hstep
    exact h.of_undisturbed (undisturbed_failLookup c ticket _) (hstays rfl)
  | addInterest client tokens =>
    cases hstep
    exact h.of_undisturbed (undisturbed_addInterest c client tokens) (hstays rfl)
  | removeInterest client tokens =>
    cases hstep
    exact h.of_undisturbed (undisturbed_applyInterest c client _) (hstays rfl)
  | clientVanished client =>
    cases hstep
    exact h.of_undisturbed (undisturbed_applyInterest c client _) (hstays rfl)
  | intern entity id keep =>
    cases hstep
    exact h.of_undisturbed (undisturbed_internKept c entity id keep) (hstays rfl)
  | drop name =>
    cases hstep
    exact h.of_undisturbed ⟨rfl, rfl, rfl, rfl⟩ (hstays rfl)
  | collect =>
    cases hstep
    exact h.of_undisturbed ⟨rfl, rfl, rfl, rfl⟩ (hstays rfl)
  | loseName =>
    cases hstep
    exact h.of_undisturbed (undisturbed_loseName c) (hstays rfl)
  | losePath =>
    cases hstep
    exact h.of_undisturbed (undisturbed_losePath c) (hstays rfl)

theorem run (h : WellOrdered kinds (fun _ => True) c) {ops : List (Operation σ ρ)}
    (hrun : c.run ops = .ok c₁) : WellOrdered kinds (fun _ => True) c₁ := by
  induction ops generalizing c with
  | nil =>
    cases hrun
    exact h
  | cons op ops ih =>
    obtain ⟨out, hstep, hrest⟩ := run_cons.mp hrun
    exact ih ((h.step hstep).ordered.redue fun _ _ _ => trivial) hrest

end WellOrdered

/-- Nobody waits in the lines of a new connection. -/
theorem wellOrdered_new (backend : Backend) (config : Config) (tables : HandleTables)
    (plans : List (ManagerPlan σ ρ)) :
    WellOrdered ((new backend config tables plans).managers.map Manager.isCustom) (fun _ => True)
      (new backend config tables plans) := by
  refine ⟨⟨rfl, .of_plans fun plan _ path tables' => ?_, fun token p hp => nomatch hp⟩, nofun⟩
  cases plan with
  | custom b state => trivial
  | contacts server data => exact ContactScene.lined_openLists server rfl

/-- In every run, whatever the application's own managers do, a request that insists on a new
channel is the first in its line, which is that of a group. And whenever an operation makes a
contact list announce channels, the requests that are answered by this were in flight or are
presented by the operation; at most one of those who are answered is told to own a channel, and
exactly one is if anybody who waited for this channel asked for a new one or for any. -/
theorem run_names_one_owner (backend : Backend) (config : Config) (tables : HandleTables)
    (plans : List (ManagerPlan σ ρ)) {ops : List (Operation σ ρ)}
    (hrun : (new backend config tables plans).run ops = .ok c) {seat : Nat}
    {server : ContactServer ρ} {list : ContactList} {data : ρ}
    (hm : c.managers[seat]? = some (.contacts server list data)) :
    (∀ t ch before token after, list.channels.get? t = some ch →
      ch.queued = before ++ token :: after → c.Insists token →
        before = [] ∧ ∃ name, t = .group name) ∧
    ∀ op out before path channels later, c.step op = .ok out →
      out.2.log = c.log ++ before ++ .signal path (.newChannels channels) :: later →
        speaker? op.seat? before = some seat →
          ∃ batch rest,
            .signal path (.newChannels channels) :: later =
              RequestLedger.announce path batch ++ rest ∧
            Mute rest ∧ (∀ s ∈ batch, ∀ p ∈ s.requests, c.Due op p) ∧
            ∀ d ∈ channels, OneOwner batch d := by
  have hordered := (wellOrdered_new backend config tables plans).run hrun
  refine ⟨fun t ch before token after hch hqueued hinsists => ?_,
    fun op out before path channels later hstep hlog hspeaker => ?_⟩
  · have hlist : list.Lined c.Insists c.ledger.tokens := hordered.ordered.lined seat _ hm
    have hline := hlist t ch hch
    rw [hqueued] at hline
    exact hline.split hinsists
  · obtain ⟨events, hevents, howned⟩ := (hordered.step hstep).owned
    rw [hlog, List.append_assoc] at hevents
    exact howned before path channels later (List.append_cancel_left hevents).symm
      ⟨seat, hspeaker, hordered.ordered.isCustom hm⟩

/-- A client requests a list or a group by a call. -/
def asking (call : Nat) (method : RequestMethod) (entity : EntityType) (id : String) :
    Operation Unit MemoryRoster :=
  .request ⟨call⟩ method (.ofList [(Property.channelType, .text Property.contactListType),
    (Property.targetEntity, .nat entity.wire), (Property.targetId, .text id)])

/-- A group and a list are requested before the roster arrives, the group by somebody who insists on
a new one. -/
def competingRequests : List (Operation Unit MemoryRoster) :=
  [.setSelf (.id "user"), .changeStatus .connected .requested,
    asking 1 .create .group "friends", asking 2 .ensure .group "friends",
    asking 3 (.legacy true) .list "subscribe", asking 4 .ensure .list "subscribe"]

/-- The roster comes, and each of the channels has one owner at most among those who waited. -/
theorem competingRequests_owned :
    ∃ c out before path channels later batch rest,
      (listing (.editable .native)).run competingRequests = .ok c ∧
      c.step (.contacts 0 .received) = .ok out ∧
      out.2.log = c.log ++ before ++ .signal path (.newChannels channels) :: later ∧
      channels.length = 5 ∧
      .signal path (.newChannels channels) :: later = RequestLedger.announce path batch ++ rest ∧
      Mute rest ∧ ∀ d ∈ channels, OneOwner batch d := by
  have heval : (((listing (.editable .native)).run competingRequests).toOption.any fun c =>
      c.contactsWith (fun _ _ => true) &&
        (c.step (.contacts 0 .received)).toOption.any fun out =>
          let news := out.2.log.drop c.log.length
          decide (speaker? (some 0) (news.take 1) = some 0) &&
            (news[1]?.bind Event.announced?).any fun a => a.2.length = 5) = true := by
    decide +kernel
  obtain ⟨c, hrun, hc⟩ := Except.eq_ok_of_any heval
  rw [Bool.and_eq_true] at hc
  obtain ⟨server, list, data, hm, -⟩ := of_contactsWith hc.1
  obtain ⟨out, hstep, hout⟩ := Except.eq_ok_of_any hc.2
  rw [Bool.and_eq_true, decide_eq_true_iff] at hout
  obtain ⟨hspeaker, hannouncement⟩ := hout
  obtain ⟨⟨path, channels⟩, hannouncement, hlength⟩ := (Option.any_eq_true _ _).mp hannouncement
  obtain ⟨e, hsecond, he⟩ := Option.bind_eq_some_iff.mp hannouncement
  obtain rfl := Event.eq_of_announced? he
  have hlog : out.2.log = c.log ++ (out.2.log.drop c.log.length).take 1 ++
      .signal path (.newChannels channels) :: (out.2.log.drop c.log.length).drop 2 := by
    obtain ⟨news, hnews, -⟩ := (((wellOrdered_new _ _ _ _).run hrun).step hstep).owned
    rw [hnews, List.drop_left] at hsecond ⊢
    obtain ⟨hlt, hget⟩ := List.getElem?_eq_some_iff.mp hsecond
    rw [← hget, List.getElem_cons_drop, List.append_assoc, List.take_append_drop]
  obtain ⟨-, howned⟩ := run_names_one_owner _ _ _ _ hrun hm
  obtain ⟨batch, rest, hannounced, hmute, -, hone⟩ := howned _ _ _ _ _ _ hstep hlog hspeaker
  exact ⟨c, out, _, path, channels, _, batch, rest, hrun, hstep, hlog, of_decide_eq_true hlength,
    hannounced, hmute, hone⟩

end Connection

end Telepathy

import Telepathy.Proofs.Connection.RosterArrival
import Telepathy.Proofs.Connection.Stages
import Telepathy.Proofs.ContactList.Settled

set_option autoImplicit false

/-!
# Nothing waits for a roster that is there

In every run, all groups of a contact list whose roster has arrived are announced and no request
waits for one. The same holds of its lists if all that the protocol has could be opened by the time
the roster arrived; then whatever request the contact list accepts is answered by the end of the
operation in which it was offered. A list that could not be opened in time is opened by the first
request for it, and that request waits until a group happens to be announced.
-/

namespace Telepathy

variable {σ ρ : Type} {Q : ContactTarget → Prop}

theorem ContactOperation.received_of_resolve {named : ContactOperation (List ContactName)}
    {t : HandleTable} (h : (named.resolve t).1 = .ok .received) : named = .received := by
  cases named with
  | received => rfl
  | contactsChanged changed departed =>
    simp only [resolve] at h
    split at h
    · cases h
    · obtain ⟨x, -, hx⟩ := Except.map_eq_ok.mp h
      cases hx
  | blockingChanged contacts | groupsChanged contacts added removed
  | addMembers path contacts message | removeMembers path contacts =>
    obtain ⟨x, -, hx⟩ := Except.map_eq_ok.mp h
    cases hx
  | _ => cases h

/-- Nothing waits at a contact list whose roster is there. -/
def Manager.Prompt (Q : ContactTarget → Prop) : Manager σ ρ → Prop
  | .custom _ _ => True
  | .contacts _ list _ => list.roster = .received → list.Settled Q

/-- Only the arrival of its roster can be the reason why something waits at a contact list. -/
theorem Manager.Ends.prompt {start : Connection σ ρ} {op : Operation σ ρ} {seat : Nat}
    {status : Status} {tables : HandleTables} {m : Manager σ ρ} {t : Turn σ ρ}
    (h : m.Ends start op seat status tables t) (hop : op ≠ .contacts seat .received)
    (hm : m.Prompt Q) : t.manager.Prompt Q := by
  cases m with
  | custom b state =>
    cases h with
    | performContacts _ _ _ hperform => cases hperform
    | changeServer _ _ _ _ hchange => cases hchange
    | changeState _ _ _ hchange =>
      cases hchange
      trivial
    | _ => trivial
  | contacts server list data =>
    let s : ContactScene ρ := ⟨list, data, tables, []⟩
    cases h with
    | @offer r htarget =>
      intro hreceived
      have hroster : (s.offer server r).2.list.roster = list.roster :=
        congrArg Prod.snd (s.settings_offer server r)
      exact ContactScene.settled_offer r (hm (hroster.symm.trans hreceived))
    | statusChanged =>
      intro hreceived
      by_cases hgone : status = .disconnected
      · simp only [if_pos hgone] at hreceived
        have hroster : s.disconnect.list.roster = .disconnected :=
          congrArg Prod.snd s.settings_disconnect
        cases hroster.symm.trans hreceived
      · simp only [if_neg hgone] at hreceived ⊢
        exact hm hreceived
    | @performContacts _ _ resolved _ hnamed hresolve _ hperform =>
      cases hperform
      intro hreceived
      have hother : resolved ≠ .received := by
        rintro rfl
        exact hop (hnamed.trans (congrArg _ (ContactOperation.received_of_resolve hresolve)))
      exact ContactScene.settled_perform _ (hm (s.received_of_perform hother hreceived))
    | changeServer _ _ _ _ hchange =>
      cases hchange
      exact hm
    | changeState _ _ _ hchange => cases hchange

namespace Connection

variable {start c c₁ : Connection σ ρ} {op : Operation σ ρ} {seat : Nat}

/-! ## Runs -/

/-- Nothing waits at a contact list whose roster is there, if one sits at `seat`. -/
def PromptAt (Q : ContactTarget → Prop) (c : Connection σ ρ) (seat : Nat) : Prop :=
  ∀ m, c.managers[seat]? = some m → m.Prompt Q

/-- The contact list at a seat, if it awaits its roster, has all lists or can open them. -/
def CanListAt (c : Connection σ ρ) (seat : Nat) : Prop :=
  ∀ server list data, c.managers[seat]? = some (.contacts server list data) →
    list.roster = .pending → (ContactScene.mk list data c.tables []).CanList

/-- When the roster arrives at a seat, all lists can be opened. -/
def ListsInTime (c : Connection σ ρ) (seat : Nat) (ops : List (Operation σ ρ)) : Prop :=
  ∀ before later c', ops = before ++ .contacts seat .received :: later →
    c.run before = .ok c' → c'.CanListAt seat

theorem PromptAt.stage (h : c.PromptAt Q seat) (hop : op ≠ .contacts seat .received)
    (hstage : Stage start op c c₁) : c₁.PromptAt Q seat := by
  rcases hstage.managers with hsame | ⟨seat', m, t, hm, hends, hset⟩
  · intro m hm
    rw [hsame] at hm
    exact h m hm
  · intro m' hm'
    rw [hset, List.getElem?_set] at hm'
    split at hm'
    case isTrue hseat =>
      subst hseat
      split at hm' <;> cases hm'
      exact hends.prompt hop (h m hm)
    case isFalse => exact h m' hm'

theorem PromptAt.received (h : c.PromptAt Q seat) (hawait : AllManagers Manager.Awaits c)
    (hlists : ∀ k, Q (.list k) → c.CanListAt seat) {out : StepOutcome σ ρ}
    (hstep : c.step (.contacts seat .received) = .ok out) : out.2.PromptAt Q seat := by
  have hnobody : c.contactListAt seat = none → out.2.PromptAt Q seat := by
    intro hnone
    have hrefused : c.step (.contacts seat .received) = .ok (.error .noSuchManager, c) := by
      simp only [step, performContacts, hnone]
    cases hstep.symm.trans hrefused
    exact h
  cases hm : c.managers[seat]? with
  | none => exact hnobody (by rw [contactListAt, hm]; rfl)
  | some m =>
    cases m with
    | custom b state => exact hnobody (by rw [contactListAt, hm]; rfl)
    | contacts server list data =>
      let s : ContactScene ρ := ⟨list, data, c.tables, []⟩
      obtain ⟨-, hout⟩ := step_received hm rfl hstep
      intro m' hm'
      cases hm'.symm.trans hout
      intro hreceived
      by_cases hpending : list.roster = .pending
      · -- Clients know of no channel yet, so none that a request waits for.
        have hprompt : list.Prompt := fun t ch hch hknown => by
          rw [((hawait seat _ hm).2.vacant hpending hch).2.unannounced] at hknown
          cases hknown
        exact s.settled_rosterReceived hpending hprompt fun k hk => hlists k hk _ _ _ hm hpending
      · have hsame : s.rosterReceived server = s := if_neg hpending
        rw [hsame] at hreceived ⊢
        exact h _ hm hreceived

theorem PromptAt.step (h : c.PromptAt Q seat) (hawait : AllManagers Manager.Awaits c)
    (hlists : op = .contacts seat .received → ∀ k, Q (.list k) → c.CanListAt seat)
    {out : StepOutcome σ ρ} (hstep : c.step op = .ok out) : out.2.PromptAt Q seat := by
  by_cases hop : op = .contacts seat .received
  · subst hop
    exact h.received hawait (hlists rfl) hstep
  · exact (stages_step hstep).rel (R := fun c c' => c.PromptAt Q seat → c'.PromptAt Q seat)
      (fun _ => id) (fun h h' hc => h' (h hc)) (fun hstage hc => hc.stage hop hstage) h

theorem PromptAt.run {ops : List (Operation σ ρ)} (h : c.PromptAt Q seat)
    (hawait : AllManagers Manager.Awaits c) (hlists : ∀ k, Q (.list k) → c.ListsInTime seat ops)
    (hrun : c.run ops = .ok c₁) : c₁.PromptAt Q seat := by
  induction ops generalizing c with
  | nil =>
    cases hrun
    exact h
  | cons op ops ih =>
    obtain ⟨out, hstep, hrest⟩ := run_cons.mp hrun
    have hfirst : out.2.PromptAt Q seat := h.step hawait (fun hop k hk => by
      subst hop
      exact hlists k hk [] ops c rfl rfl) hstep
    refine ih hfirst (hawait.step Manager.awaits_lasting hstep) (fun k hk => ?_) hrest
    rintro before later c' rfl hbefore
    exact hlists k hk (op :: before) later c' rfl (run_cons.mpr ⟨out, hstep, hbefore⟩)

theorem promptAt_new (backend : Backend) (config : Config) (tables : HandleTables)
    (plans : List (ManagerPlan σ ρ)) (seat : Nat) :
    (new backend config tables plans).PromptAt Q seat := by
  intro m hm
  obtain ⟨plan, tables', -, rfl⟩ := build_of_buildAll hm
  cases plan with
  | custom b state => trivial
  | contacts server data =>
    intro hreceived
    cases (congrArg Prod.snd (ContactScene.settings_openLists _)).symm.trans hreceived

/-! ## Answers -/

/-- A request of `call` is answered by the time a connection has become `c'`. -/
def Answers (c : Connection σ ρ) (call : CallId) (c' : Connection σ ρ) : Prop :=
  ∃ events, c'.log = c.log ++ events ∧ RequestAnswered events call

/-- Which manager was asked last by the time a connection has become `c'`, and for which request. -/
def lastAsked? (c c' : Connection σ ρ) : Option (Nat × ChannelRequest) :=
  (c'.offers.drop c.offers.length).getLast?

/-- The call by which a channel was requested that managers are asked for in the course of an
operation. -/
def requester? (c : Connection σ ρ) : Operation σ ρ → Option CallId
  | .request call _ _ => some call
  | .lookupFound ticket _ _ => (c.ledger.parked.get? ticket).map (·.call)
  | _ => none

/-- Nothing waits at the contact list that sits at a seat. -/
def SettledAt (c : Connection σ ρ) (seat : Nat) : Prop :=
  ∃ server list data, c.managers[seat]? = some (.contacts server list data) ∧
    list.Settled fun _ => True

theorem offerAt_cases {r : ChannelRequest} {o : Offer} (h : c.offerAt r seat = .ok (o, c₁)) :
    c.managers[seat]? = none ∧ o = .declined ∧ c₁ = c ∨
      ∃ m, c.managers[seat]? = some m ∧ o = (m.offer c.tables r).1 ∧
        c₁.ledger = c.ledger.without (reportedTokens (m.offer c.tables r).2.effects) ∧
        c₁.managers = c.managers.set seat (m.offer c.tables r).2.manager ∧
        c₁.offers = c.offers ++ [(seat, r)] := by
  unfold offerAt at h
  split at h
  case h_1 hnone =>
    cases h
    exact .inl ⟨hnone, rfl, rfl⟩
  case h_2 m hm =>
    obtain ⟨c', hturn, heq⟩ := Except.map_eq_ok.mp h
    cases heq
    obtain ⟨hledger, hmanagers, hoffers⟩ := takeTurn_eq_ok hturn
    exact .inr ⟨m, hm, rfl, hledger, hmanagers, hoffers.trans (offers_offered c seat r)⟩

/-- A settled contact list is settled after whatever request is offered to anybody; one that it
accepts is not in flight any more. -/
theorem SettledAt.offerAt (h : c.SettledAt seat) {r : ChannelRequest} {seat' : Nat} {o : Offer}
    (hoffer : c.offerAt r seat' = .ok (o, c₁)) :
    c₁.SettledAt seat ∧ (o = .accepted → seat' = seat → c₁.ledger.isPending r.token = false) := by
  obtain ⟨server, list, data, hm, hsettled⟩ := h
  rcases offerAt_cases hoffer with ⟨-, rfl, rfl⟩ | ⟨m, hm', rfl, hledger, hmanagers, -⟩
  · exact ⟨⟨server, list, data, hm, hsettled⟩, by simp⟩
  · by_cases hseat : seat' = seat
    · subst hseat
      cases hm.symm.trans hm'
      let s : ContactScene ρ := ⟨list, data, c.tables, []⟩
      have hafter : (s.offer server r).2.list.Settled fun _ => True :=
        ContactScene.settled_offer r hsettled
      have hlength : seat' < c.managers.length := (List.getElem?_eq_some_iff.mp hm).1
      refine ⟨⟨server, (s.offer server r).2.list, (s.offer server r).2.server, ?_, hafter⟩,
        fun haccepted _ => ?_⟩
      · rw [hmanagers, List.getElem?_set_self hlength]
        rfl
      · -- The request is accounted for, and no request waits, so it was reported on.
        have hreported : r.token ∈ reportedTokens (s.offer server r).2.effects := by
          rcases ContactScene.offer_spec server s r with hdeclined | ⟨s', haccepts, htally⟩
          · have haccepted : (s.offer server r).1 = .accepted := haccepted
            rw [hdeclined] at haccepted
            cases haccepted
          · rw [haccepts] at hafter ⊢
            have hone : s'.tokenTally r.token = s.tokenTally r.token + 1 := by
              rw [htally.tally, List.count_singleton_self]
            rw [ContactScene.tokenTally, hafter.told.queuedTokens, List.count_nil] at hone
            have hpos : 0 < (reportedTokens s'.effects).count r.token := by omega
            exact List.count_pos_iff.mp hpos
        rw [hledger]
        exact Bool.eq_false_iff.mpr fun hp => (RequestLedger.isPending_without.mp hp).2 hreported
    · refine ⟨⟨server, list, data, ?_, hsettled⟩, fun _ heq => absurd heq hseat⟩
      rw [hmanagers, List.getElem?_set_ne hseat]
      exact hm

/-- A request that is accepted was accepted by the manager that was asked last. -/
theorem SettledAt.offerTo (h : c.SettledAt seat) {r : ChannelRequest} {seats : List Nat}
    (hoffer : c.offerTo r seats = .ok (.accepted, c₁)) :
    ∃ before seat', c₁.offers = c.offers ++ before ++ [(seat', r)] ∧
      (seat' = seat → c₁.ledger.isPending r.token = false) := by
  induction seats generalizing c with
  | nil => cases hoffer
  | cons first seats ih =>
    obtain ⟨⟨o, c'⟩, hfirst, hrest⟩ := Except.bind_eq_ok.mp hoffer
    obtain ⟨hsettled, hanswered⟩ := h.offerAt hfirst
    cases o with
    | accepted =>
      cases hrest
      rcases offerAt_cases hfirst with ⟨-, hdeclined, -⟩ | ⟨m, -, -, -, -, hoffers⟩
      · cases hdeclined
      · exact ⟨[], first, by rw [hoffers, List.append_nil], hanswered rfl⟩
    | declined =>
      obtain ⟨before, seat', hoffers, hlast⟩ := ih hsettled hrest
      rcases offerAt_cases hfirst with ⟨-, -, rfl⟩ | ⟨m, -, -, -, -, hfirst⟩
      · exact ⟨before, seat', hoffers, hlast⟩
      · exact ⟨(first, r) :: before, seat', by rw [hoffers, hfirst]; simp, hlast⟩

theorem isPending_refuse (c : Connection σ ρ) (r : ChannelRequest) :
    (c.refuse r).ledger.isPending r.token = false := by
  unfold refuse
  refine Bool.eq_false_iff.mpr fun hp => ?_
  split at hp
  case h_1 hclaim =>
    obtain ⟨p, hp⟩ := RequestLedger.isPending_iff.mp hp
    cases hclaim.symm.trans (RequestLedger.claim_eq_ok_iff.mpr ⟨hp, rfl⟩)
  case h_2 hclaim =>
    obtain ⟨-, rfl⟩ := RequestLedger.claim_eq_ok_iff.mp hclaim
    exact (RequestLedger.isPending_without.mp hp).2 (List.mem_singleton_self _)

/-- A request is answered at once, unless some other manager accepted it. -/
theorem SettledAt.present (h : c.SettledAt seat) {call : CallId} {r : ValidRequest}
    {target : Option Handle} (hpresent : c.present call r target = .ok c₁) :
    c.Answers call c₁ ∨
      ∃ before seat' r', c₁.offers = c.offers ++ before ++ [(seat', r')] ∧ seat' ≠ seat := by
  obtain ⟨⟨o, c'⟩, hoffer, hpresent⟩ := Except.bind_eq_ok.mp hpresent
  let reference := target.map (Reference.mk r.entity)
  let request :=
    ChannelRequest.new c.ledger.nextToken r target (reference.bind c.tables.inspect)
  let p : PendingRequest := ⟨call, r.method, reference⟩
  let tracked : Connection σ ρ := { c with
    ledger := c.ledger.track p
    tables := c.tables.retainAll reference.toList }
  have hp : tracked.ledger.inFlight.get? request.token = some p :=
    SortedMap.get?_insert_self _ _ _
  have hserved : tracked.Served c' := served_offerTo hoffer
  -- Whatever takes the request out of flight answers it.
  have hanswers : ∀ {c₁}, tracked.Served c₁ → c₁.ledger.isPending request.token = false →
      c.Answers call c₁ := by
    intro c₁ hserved hover
    obtain ⟨events, hlog, hkeeps⟩ := hserved.requests
    rcases hkeeps _ _ hp with hstays | hanswered
    · rw [RequestLedger.isPending_iff.mpr ⟨p, hstays⟩] at hover
      cases hover
    · exact ⟨events, hlog, hanswered⟩
  cases o with
  | accepted =>
    cases hpresent
    have htracked : tracked.SettledAt seat := h
    obtain ⟨before, seat', hoffers, hlast⟩ := htracked.offerTo hoffer
    by_cases hseat : seat' = seat
    · exact .inl (hanswers hserved (hlast hseat))
    · exact .inr ⟨before, seat', _, hoffers, hseat⟩
  | declined =>
    cases hpresent
    exact .inl (hanswers (hserved.trans (served_refuse c' _)) (isPending_refuse c' _))

theorem lastAsked?_of_offers (h : c₁.offers = c.offers) : c.lastAsked? c₁ = none := by
  rw [lastAsked?, h, List.drop_length]
  rfl

theorem SettledAt.answers_present (h : c.SettledAt seat) {call : CallId} {r : ValidRequest}
    {target : Option Handle} (hpresent : c.present call r target = .ok c₁) {asked : ChannelRequest}
    (hlast : c.lastAsked? c₁ = some (seat, asked)) : c.Answers call c₁ := by
  rcases h.present hpresent with hanswers | ⟨before, seat', r', hoffers, hother⟩
  · exact hanswers
  · rw [lastAsked?, hoffers, List.append_assoc, List.drop_left, List.getLast?_concat] at hlast
    cases hlast
    exact absurd rfl hother

/-- Whoever requests a channel has an answer by the end of the operation in which a settled contact
list was the last manager to be asked. -/
theorem SettledAt.answers (h : c.SettledAt seat) {call : CallId}
    (hrequester : c.requester? op = some call) {out : StepOutcome σ ρ}
    (hstep : c.step op = .ok out) {asked : ChannelRequest}
    (hlast : c.lastAsked? out.2 = some (seat, asked)) : c.Answers call out.2 := by
  have hasked : out.2.offers ≠ c.offers := fun hsame => by
    rw [lastAsked?_of_offers hsame] at hlast
    cases hlast
  cases op with
  | request call' method properties =>
    cases hrequester
    obtain ⟨c', hrequest, rfl⟩ := Except.map_eq_ok.mp hstep
    unfold request at hrequest
    split at hrequest
    · split at hrequest
      case h_1 r _ =>
        unfold submit at hrequest
        split at hrequest
        case h_1 target tables _ =>
          exact answers_present (c := { c with tables }) h hrequest hlast
        case h_2 =>
          cases hrequest
          exact absurd (undisturbed_beginLookup c _ _ _ _).offers hasked
        case h_3 =>
          cases hrequest
          exact absurd (offers_record c (by simp)) hasked
      case h_2 =>
        cases hrequest
        exact absurd (offers_record c (by simp)) hasked
    · cases hrequest
      exact absurd (offers_record c (by simp)) hasked
  | lookupFound ticket entity target =>
    obtain ⟨p, hp, rfl⟩ := Option.map_eq_some_iff.mp hrequester
    have hfound : c.completeLookup ticket entity target = .ok out := hstep
    unfold completeLookup at hfound
    split at hfound
    · cases hfound
      exact absurd rfl hasked
    case h_2 t _ =>
      dsimp only at hfound
      split at hfound
      · cases hfound
        exact absurd rfl hasked
      · obtain ⟨⟨outcome, c'⟩, hresume, rfl⟩ := Except.map_eq_ok.mp hfound
        unfold resumeLookup at hresume
        rw [RequestLedger.unpark?_eq_some_iff.mpr ⟨hp, rfl⟩] at hresume
        obtain ⟨c'', hpresent, heq⟩ := Except.bind_eq_ok.mp hresume
        cases heq
        exact answers_present (c := { c with
          tables := c.tables.set entity (t.resolve target).2
          ledger := { c.ledger with parked := c.ledger.parked.erase ticket } }) h hpresent hlast
  | _ => cases hrequester

/-! ## The main result -/

/-- In every run, whatever the handle tables: once the roster of a contact list is there, all groups
are announced and no request waits for one. If all lists could be opened by the time it arrived, no
channel at all is unannounced and no request waits; and then, if in the course of an operation the
contact list is the last manager to be asked for a channel, which is the case if it accepts the
request, whoever requested the channel has an answer by the end of the operation. -/
theorem run_leaves_nothing_waiting (backend : Backend) (config : Config) (tables : HandleTables)
    (plans : List (ManagerPlan σ ρ)) {ops : List (Operation σ ρ)}
    (hrun : (new backend config tables plans).run ops = .ok c) {server : ContactServer ρ}
    {list : ContactList} {data : ρ} (hm : c.managers[seat]? = some (.contacts server list data))
    (hreceived : list.roster = .received) :
    (∀ name ch, list.group? name = some ch → ch.announced = true ∧ ch.queued = []) ∧
    ((new backend config tables plans).ListsInTime seat ops →
      (∀ t ch, list.channels.get? t = some ch → ch.announced = true) ∧
      list.queuedRequests = 0 ∧
      ∀ op call out asked, c.requester? op = some call → c.step op = .ok out →
        c.lastAsked? out.2 = some (seat, asked) → c.Answers call out.2) := by
  have hsettled : ∀ Q : ContactTarget → Prop,
      (∀ k, Q (.list k) → (new backend config tables plans).ListsInTime seat ops) →
        list.Settled Q := fun Q hlists =>
    (promptAt_new backend config tables plans seat).run (allAwait_new backend config tables plans)
      hlists hrun _ hm hreceived
  refine ⟨fun name ch hch => ?_, fun hlists => ?_⟩
  · exact (hsettled (fun t => t.entity = .group) (by simp [ContactTarget.entity])).told
      (.group name) ch hch rfl
  · have hall := hsettled (fun _ => True) fun _ _ => hlists
    refine ⟨fun t ch hch => (hall.told t ch hch trivial).1, ?_, ?_⟩
    · rw [list.queuedRequests_eq, hall.told.queuedTokens]
      rfl
    · intro op call out asked hrequester hstep hlast
      have hat : c.SettledAt seat := ⟨server, list, data, hm, hall⟩
      exact hat.answers hrequester hstep hlast

/-- A connection with one contact list, whose backend looks identifiers up. -/
def searching (lists groups : HandleTable) : Connection Unit MemoryRoster :=
  .new ⟨"sample", "account", [], [], none, false, fun _ _ _ => none⟩ .standard
    ⟨.onDemand .contact, none, some lists, some groups⟩
    [.contacts (MemoryRoster.server ⟨true, true, false, true, .editable .native⟩ [] false) .empty]

/-- A client requests a list or a group. -/
def seeking (entity : EntityType) (id : String) : Operation Unit MemoryRoster :=
  .request ⟨1⟩ .ensure (.ofList [(Property.channelType, .text Property.contactListType),
    (Property.targetEntity, .nat entity.wire), (Property.targetId, .text id)])

/-- The roster arrives, and the connection is established. -/
def settledIn : List (Operation Unit MemoryRoster) :=
  [.contacts 0 .received, .setSelf (.id "user"), .changeStatus .connected .requested]

/-- A group that has to be looked up is announced, and whoever requested it is answered, as soon as
the group is found. -/
theorem seeking_group_answered :
    ∃ c server list data out,
      (searching (.onDemand .list) (.requiringLookup .group)).run
        (settledIn ++ [seeking .group "friends"]) = .ok c ∧
      c.managers[0]? = some (.contacts server list data) ∧ list.queuedRequests = 0 ∧
      c.step (.lookupFound ⟨1⟩ .group (.id "friends")) = .ok out ∧ c.Answers ⟨1⟩ out.2 := by
  have heval : (((searching (.onDemand .list) (.requiringLookup .group)).run
      (settledIn ++ [seeking .group "friends"])).toOption.any fun c =>
        c.contactsWith (fun _ s => decide (s.list.roster = .received)) &&
          (c.requester? (.lookupFound ⟨1⟩ .group (.id "friends")) = some ⟨1⟩ &&
            (c.step (.lookupFound ⟨1⟩ .group (.id "friends"))).toOption.any fun out =>
              (c.lastAsked? out.2).map Prod.fst = some 0)) = true := by
    decide +kernel
  obtain ⟨c, hrun, hc⟩ := Except.eq_ok_of_any heval
  rw [Bool.and_eq_true, Bool.and_eq_true, decide_eq_true_iff] at hc
  obtain ⟨hloaded, hrequester, hlast⟩ := hc
  obtain ⟨server, list, data, hm, hreceived⟩ := of_contactsWith hloaded
  obtain ⟨out, hstep, hlast⟩ := Except.eq_ok_of_any hlast
  obtain ⟨⟨seat, asked⟩, hlast, hseat⟩ := Option.map_eq_some_iff.mp (of_decide_eq_true hlast)
  cases hseat
  have htime : (searching (.onDemand .list) (.requiringLookup .group)).ListsInTime 0
      (settledIn ++ [seeking .group "friends"]) := by
    intro before later c' hsplit hbefore
    cases before with
    | nil =>
      cases hbefore
      intro server list data hm _ k _
      have hopen : (searching (.onDemand .list) (.requiringLookup .group)).contactsWith
          (fun _ s => ListKind.all.all fun k => s.list.channels.contains (.list k)) = true := by
        decide +kernel
      obtain ⟨_, _, _, hm', hall⟩ := of_contactsWith hopen
      cases hm.symm.trans hm'
      exact .inl (List.all_eq_true.mp hall k (by cases k <;> decide))
    | cons op before =>
      have hlater : [.setSelf (.id "user"), .changeStatus .connected .requested,
          seeking .group "friends"] = before ++ .contacts 0 .received :: later :=
        (List.cons.inj hsplit).2
      have hagain : Operation.contacts 0 .received ∈ [.setSelf (.id "user"),
          .changeStatus .connected .requested, seeking .group "friends"] := by
        rw [hlater]
        simp
      simp [seeking] at hagain
  obtain ⟨-, hothers⟩ := run_leaves_nothing_waiting _ _ _ _ hrun hm (of_decide_eq_true hreceived)
  obtain ⟨-, hnone, hanswers⟩ := hothers htime
  exact ⟨c, server, list, data, out, hrun, hm, hnone, hstep,
    hanswers _ _ out asked hrequester hstep hlast⟩

/-- A list that has to be looked up is opened when it is found, but nobody is told of it, and
whoever requested it waits though the roster is there. -/
theorem seeking_list_waits :
    ∃ c server list data,
      (searching (.requiringLookup .list) (.onDemand .group)).run
        (settledIn ++ [seeking .list "subscribe",
          .lookupFound ⟨1⟩ .list (.id "subscribe")]) = .ok c ∧
      c.managers[0]? = some (.contacts server list data) ∧ list.roster = .received ∧
      list.queuedRequests = 1 ∧ (list.list? .subscribe).map (·.announced) = some false ∧
      c.answersTo ⟨1⟩ = [] := by
  have heval : (((searching (.requiringLookup .list) (.onDemand .group)).run
      (settledIn ++ [seeking .list "subscribe",
        .lookupFound ⟨1⟩ .list (.id "subscribe")])).toOption.any fun c =>
          c.contactsWith (fun _ s => decide (s.list.roster = .received ∧
            s.list.queuedRequests = 1 ∧
            (s.list.list? .subscribe).map (·.announced) = some false)) &&
              c.answersTo ⟨1⟩ = []) = true := by
    decide +kernel
  obtain ⟨c, hrun, hc⟩ := Except.eq_ok_of_any heval
  rw [Bool.and_eq_true, decide_eq_true_iff] at hc
  obtain ⟨server, list, data, hm, hlist⟩ := of_contactsWith hc.1
  obtain ⟨hreceived, hqueued, hunannounced⟩ := of_decide_eq_true hlist
  exact ⟨c, server, list, data, hrun, hm, hreceived, hqueued, hunannounced, hc.2⟩

end Connection

end Telepathy

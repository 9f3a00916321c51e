import Telepathy.Proofs.Connection.Farewell
import Telepathy.Proofs.Connection.Undisturbed
import Telepathy.Proofs.Connection.Waiting
import Telepathy.Proofs.ContactList.Lines

set_option autoImplicit false

/-!
# What contact lists announce

A connection carries out what a contact list does in its turn. If the lines of requests are in
order, it announces each channel to one owner at most, and leaves the lines in order. Which manager
an announcement comes from can be seen in the events: it is the one that was addressed last, or else
the one that the operation is about. `Goes` collects this for the stages of an operation.
-/

namespace Telepathy

variable {σ ρ : Type}

/-! ## Who speaks -/

/-- The seat of the manager that is addressed by an event. -/
def Event.addressee? : Event → Option Nat
  | offered seat _ | notified seat _ => some seat
  | _ => none

/-- The seat of the manager that an operation is about. -/
def Operation.seat? : Operation σ ρ → Option Nat
  | .changeManager seat _ | .changeServer seat _ _ | .contacts seat _ => some seat
  | _ => none

/-- The seat of the manager that acts after some events, if `first` is that of the one that acts
before: the one that was addressed last. -/
def speaker? (first : Option Nat) (events : List Event) : Option Nat :=
  (events.filterMap Event.addressee?).getLast?.or first

theorem speaker?_append (first : Option Nat) (events more : List Event) :
    speaker? first (events ++ more) = speaker? (speaker? first events) more := by
  simp only [speaker?, List.filterMap_append, List.getLast?_append, Option.or_assoc]

theorem speaker?_of_unaddressed {first : Option Nat} {events : List Event}
    (h : ∀ e ∈ events, e.addressee? = none) : speaker? first events = first := by
  rw [speaker?, List.filterMap_eq_nil_iff.mpr h]
  rfl

/-- One of the contact lists acts after some events; `kinds` says which managers are the
application's own. -/
def ListSpeaks (kinds : List Bool) (first : Option Nat) (events : List Event) : Prop :=
  ∃ seat, speaker? first events = some seat ∧ kinds[seat]? = some false

namespace Connection

variable {c c₁ c₂ : Connection σ ρ} {kinds : List Bool} {due : PendingRequest → Prop}
  {insists : RequestToken → Prop}

/-- What contact lists announce on the way from one connection to another answers requests that are
due and has one owner at most, whoever acted before. -/
def Speaks (kinds : List Bool) (due : PendingRequest → Prop) (c c' : Connection σ ρ) : Prop :=
  ∃ events, c'.log = c.log ++ events ∧
    (∀ first, Owned due (ListSpeaks kinds first) events) ∧ Mute events

namespace Speaks

theorem of_idle {events : List Event} (hlog : c₁.log = c.log ++ events)
    (h : ∀ e ∈ events, e.IsIdle) : c.Speaks kinds due c₁ :=
  ⟨events, hlog, fun _ => .of_idle h, .of_idle h⟩

theorem of_log (h : c₁.log = c.log) : c.Speaks kinds due c₁ :=
  ⟨[], by rw [h, List.append_nil], fun _ => .nil, .nil⟩

theorem trans (h : c.Speaks kinds due c₁) (h' : c₁.Speaks kinds due c₂) :
    c.Speaks kinds due c₂ := by
  obtain ⟨events, hlog, howned, hmute⟩ := h
  obtain ⟨events', hlog', howned', hmute'⟩ := h'
  refine ⟨events ++ events', by rw [hlog', hlog, List.append_assoc], fun first => ?_,
    hmute.append hmute'⟩
  refine (howned first).append ((howned' (speaker? first events)).mono fun before => ?_) hmute'
  rw [ListSpeaks, ListSpeaks, speaker?_append]
  exact id

end Speaks

/-! ## Turns -/

theorem unaddressed_perform {seat : Nat} {e : Effect} (h : c.perform seat e = .ok c₁) :
    ∃ events, c₁.log = c.log ++ events ∧ ∀ e ∈ events, e.addressee? = none := by
  cases e with
  | report r =>
    obtain ⟨s, hs, rfl⟩ := settle_cases (Except.mapError_eq_ok.mp h)
    refine ⟨s.events, rfl, fun e he => ?_⟩
    obtain ⟨_, _, rfl, -⟩ | ⟨_, _, rfl, -⟩ := RequestLedger.mem_settle_events hs he <;> rfl
  | signal path s =>
    cases h
    exact ⟨_, rfl, fun e he => List.mem_singleton.mp he ▸ rfl⟩
  | called call =>
    cases h
    exact ⟨_, rfl, fun e he => List.mem_singleton.mp he ▸ rfl⟩

/-- What a manager does in its turn addresses nobody. -/
theorem unaddressed_takeTurn {seat : Nat} {t : Turn σ ρ} (h : c.takeTurn seat t = .ok c₁) :
    ∃ events, c₁.log = c.log ++ events ∧ ∀ e ∈ events, e.addressee? = none := by
  have hall := List.foldlM_rel
    (R := fun c c₁ : Connection σ ρ =>
      ∃ events, c₁.log = c.log ++ events ∧ ∀ e ∈ events, e.addressee? = none)
    (fun c => ⟨[], (List.append_nil _).symm, nofun⟩)
    (fun ⟨events, hlog, hnone⟩ ⟨events', hlog', hnone'⟩ =>
      ⟨events ++ events', by rw [hlog', hlog, List.append_assoc],
        fun e he => (List.mem_append.mp he).elim (hnone e) (hnone' e)⟩) unaddressed_perform h
  exact hall

/-- A fair effect is carried out so that every channel has one owner at most, if the requests in
flight that are for a new channel are known to insist on one. -/
theorem owned_perform {seat : Nat} {e : Effect} (hflight : c.ledger.Knows due insists)
    (hfair : e.IsFair insists) (h : c.perform seat e = .ok c₁) :
    ∃ events, c₁.log = c.log ++ events ∧ Owned due (fun _ => True) events ∧ Mute events := by
  have hidle : ∀ e : Event, e.IsIdle → Owned due (fun _ => True) [e] ∧ Mute [e] := fun e he =>
    ⟨.of_idle fun _ h => List.mem_singleton.mp h ▸ he,
      .of_idle fun _ h => List.mem_singleton.mp h ▸ he⟩
  cases e with
  | report r =>
    obtain ⟨s, hs, rfl⟩ := settle_cases (Except.mapError_eq_ok.mp h)
    exact ⟨s.events, rfl, RequestLedger.owned_settle hflight hfair hs⟩
  | signal path s =>
    cases h
    refine ⟨_, rfl, hidle _ ?_⟩
    rcases hfair with hquiet | rfl
    · cases s with
      | newChannels channels => exact hquiet.elim
      | _ => trivial
    · trivial
  | called call =>
    cases h
    exact ⟨_, rfl, hidle _ trivial⟩

theorem owned_performAll {seat : Nat} {effects : List Effect}
    (hflight : c.ledger.Knows due insists) (hfair : ∀ e ∈ effects, e.IsFair insists)
    (h : effects.foldlM (perform seat) c = .ok c₁) :
    ∃ events, c₁.log = c.log ++ events ∧ Owned due (fun _ => True) events ∧ Mute events := by
  induction effects generalizing c with
  | nil =>
    cases h
    exact ⟨[], (List.append_nil _).symm, .nil, .nil⟩
  | cons e effects ih =>
    obtain ⟨c', hfirst, hrest⟩ := Except.bind_eq_ok.mp (by rwa [List.foldlM_cons] at h)
    obtain ⟨events, hlog, howned, hmute⟩ :=
      owned_perform hflight (hfair e List.mem_cons_self) hfirst
    obtain ⟨tokens, hledger⟩ := (served_perform hfirst).ledger
    obtain ⟨events', hlog', howned', hmute'⟩ :=
      ih (hledger ▸ hflight.without tokens) (fun e he => hfair e (List.mem_cons_of_mem _ he)) hrest
    exact ⟨events ++ events', by rw [hlog', hlog, List.append_assoc],
      howned.append howned' hmute', hmute.append hmute'⟩

theorem owned_takeTurn {seat : Nat} {t : Turn σ ρ} (hflight : c.ledger.Knows due insists)
    (hfair : ∀ e ∈ t.effects, e.IsFair insists) (h : c.takeTurn seat t = .ok c₁) :
    ∃ events, c₁.log = c.log ++ events ∧ Owned due (fun _ => True) events ∧ Mute events := by
  have hplaced : RequestLedger.Knows due insists
      { c with managers := c.managers.set seat t.manager, tables := t.tables }.ledger := hflight
  have hperformed := owned_performAll hplaced hfair h
  exact hperformed

/-- A turn in which a request gets a channel that was there before announces nothing. -/
theorem owned_of_known {seat : Nat} {t : Turn σ ρ} {token : RequestToken}
    {channel : ChannelDetails} (ht : t.effects = [.report (.alreadySatisfied token channel)])
    (h : c.takeTurn seat t = .ok c₁) (p : List Event → Prop) :
    ∃ events, c₁.log = c.log ++ events ∧ Owned due p events := by
  rw [takeTurn, ht] at h
  obtain ⟨c', hperform, h⟩ := Except.bind_eq_ok.mp (by rwa [List.foldlM_cons] at h)
  cases h
  obtain ⟨s, hs, rfl⟩ := settle_cases (Except.mapError_eq_ok.mp hperform)
  obtain ⟨call, a, hevents⟩ := RequestLedger.events_of_alreadySatisfied hs
  exact ⟨s.events, rfl, .of_silent (by simp [hevents])⟩

/-- What is done in a turn that begins with an event by which the manager is addressed. -/
theorem speaks_addressed {seat : Nat} {t : Turn σ ρ} {e : Event} (he : e.addressee? = some seat)
    (hturn : (c.record [e]).takeTurn seat t = .ok c₁)
    (howned : kinds[seat]? = some false →
      ∃ events, c₁.log = (c.record [e]).log ++ events ∧ Owned due (fun _ => True) events) :
    c.Speaks kinds due c₁ := by
  obtain ⟨events, hlog, hnone⟩ := unaddressed_takeTurn hturn
  refine ⟨e :: events, by rw [hlog, record, List.append_assoc]; rfl, fun first => ?_, ?_⟩
  · rintro before path channels later hsplit ⟨seat', hspeaker, hlist⟩
    cases before with
    | nil =>
      obtain ⟨rfl, -⟩ := List.cons.inj hsplit
      cases he
    | cons x before =>
      obtain ⟨rfl, hevents⟩ := List.cons.inj hsplit
      have hbefore : ∀ e ∈ before, e.addressee? = none := fun e he =>
        hnone e (hevents ▸ List.mem_append_left _ he)
      have hspeaks : speaker? first (e :: before) = some seat := by
        rw [← List.singleton_append, speaker?_append, speaker?_of_unaddressed hbefore, speaker?,
          List.filterMap_cons_some he]
        rfl
      cases hspeaks.symm.trans hspeaker
      obtain ⟨events', hlog', howned⟩ := howned hlist
      rw [← List.append_cancel_left (hlog.symm.trans hlog')] at howned
      exact howned before path channels later hevents trivial
  · cases e with
    | offered seat r => exact .cons rfl _
    | notified seat status => exact .cons rfl _
    | _ => cases he

/-! ## Order -/

/-- The lines of all contact lists are in order, where some of the requests so far insist on new
channels, and the requests in flight are due. -/
structure Ordered (kinds : List Bool) (due : PendingRequest → Prop) (insists : RequestToken → Prop)
    (c : Connection σ ρ) : Prop where
  kinds : c.managers.map Manager.isCustom = kinds
  lined : AllManagers (Manager.OfLists fun _ list => list.Lined insists c.ledger.tokens) c
  flight : c.ledger.Knows due insists

/-- A stage of an operation that leaves the lines in order, where no manager is asked for a channel
but for `asked`. -/
structure Goes (kinds : List Bool) (due : PendingRequest → Prop) (insists : RequestToken → Prop)
    (asked : Option ChannelRequest) (c c' : Connection σ ρ) : Prop where
  ordered : Ordered kinds due insists c'
  tokens : c'.ledger.tokens = c.ledger.tokens
  offers : ∃ more, c'.offers = c.offers ++ more ∧ ∀ o ∈ more, asked = some o.2
  speaks : c.Speaks kinds due c'

variable {asked : Option ChannelRequest}

namespace Goes

/-- A stage in which no manager is asked for a channel. -/
theorem of_offers (h : Ordered kinds due insists c₁) (htokens : c₁.ledger.tokens = c.ledger.tokens)
    (hoffers : c₁.offers = c.offers) (hspeaks : c.Speaks kinds due c₁) :
    Goes kinds due insists asked c c₁ where
  ordered := h
  tokens := htokens
  offers := ⟨[], by rw [hoffers, List.append_nil], fun _ ho => absurd ho List.not_mem_nil⟩
  speaks := hspeaks

theorem refl (h : Ordered kinds due insists c) : Goes kinds due insists asked c c :=
  .of_offers h rfl rfl (.of_log rfl)

theorem trans (h : Goes kinds due insists asked c c₁) (h' : Goes kinds due insists asked c₁ c₂) :
    Goes kinds due insists asked c c₂ := by
  obtain ⟨more, hoffers, hasked⟩ := h.offers
  obtain ⟨more', hoffers', hasked'⟩ := h'.offers
  exact ⟨h'.ordered, h'.tokens.trans h.tokens,
    ⟨more ++ more', by rw [hoffers', hoffers, List.append_assoc],
      fun o ho => (List.mem_append.mp ho).elim (hasked o) (hasked' o)⟩,
    h.speaks.trans h'.speaks⟩

end Goes

namespace Ordered

theorem isCustom (h : Ordered kinds due insists c) {seat : Nat} {m : Manager σ ρ}
    (hm : c.managers[seat]? = some m) : kinds[seat]? = some m.isCustom := by
  rw [← h.kinds, List.getElem?_map, hm]
  rfl

/-- What managers do not notice leaves the lines in order. -/
theorem undisturbed (h : Ordered kinds due insists c) (hc : c.Undisturbed c₁) :
    Ordered kinds due insists c₁ where
  kinds := hc.managers ▸ h.kinds
  lined seat m hm := by
    rw [hc.tokens]
    exact h.lined seat m (hc.managers ▸ hm)
  flight token p hp := h.flight token p (hc.inFlight ▸ hp)

theorem goes_undisturbed (h : Ordered kinds due insists c) (hc : c.Undisturbed c₁)
    (hspeaks : c.Speaks kinds due c₁) : Goes kinds due insists asked c c₁ :=
  .of_offers (h.undisturbed hc) hc.tokens hc.offers hspeaks

theorem goes_record (h : Ordered kinds due insists c) {events : List Event}
    (hidle : ∀ e ∈ events, e.IsIdle) (hoffered : ∀ e ∈ events, ∀ seat r, e ≠ .offered seat r) :
    Goes kinds due insists asked c (c.record events) :=
  h.goes_undisturbed (.record c hoffered) (.of_idle rfl hidle)

/-- A turn after which the lines of the manager are in order. -/
theorem turn (h : Ordered kinds due insists c) {seat : Nat} {m : Manager σ ρ} {t : Turn σ ρ}
    (hm : c.managers[seat]? = some m) (hturn : c.takeTurn seat t = .ok c₁)
    (hkind : t.manager.isCustom = m.isCustom)
    (hlined : t.manager.OfLists fun _ list => list.Lined insists c.ledger.tokens) :
    Ordered kinds due insists c₁ ∧ c₁.ledger.tokens = c.ledger.tokens ∧ c₁.offers = c.offers := by
  obtain ⟨hledger, hmanagers, hoffers⟩ := takeTurn_eq_ok hturn
  have htokens : c₁.ledger.tokens = c.ledger.tokens := by rw [hledger]; rfl
  refine ⟨⟨?_, ?_, hledger ▸ h.flight.without _⟩, htokens, hoffers⟩
  · rw [hmanagers, InCustody.map_isCustom_set hm hkind, h.kinds]
  · rw [htokens]
    exact h.lined.replace hlined hmanagers

end Ordered

/-- The turn of a contact list in which it does nothing but what is fair. -/
theorem Ordered.listTurn (h : Ordered kinds due insists c) {seat : Nat} {server : ContactServer ρ}
    {list : ContactList} {data : ρ} (hm : c.managers[seat]? = some (.contacts server list data))
    {s : ContactScene ρ} (hlined : s.list.Lined insists c.ledger.tokens)
    (hfair : ∀ e ∈ s.effects, e.IsFair insists)
    (hturn : c.takeTurn seat (Manager.close server s) = .ok c₁) :
    Goes kinds due insists asked c c₁ := by
  obtain ⟨hordered, htokens, hoffers⟩ := h.turn hm hturn rfl hlined
  obtain ⟨events, hlog, howned, hmute⟩ := owned_takeTurn h.flight hfair hturn
  exact .of_offers hordered htokens hoffers
    ⟨events, hlog, fun first => howned.mono fun _ _ => trivial, hmute⟩

/-! ## Changes of status -/

/-- A contact list does nothing but what is fair when it is told of a status. -/
theorem lined_statusChanged {server : ContactServer ρ} {list : ContactList} {data : ρ}
    {issued : Nat} (h : list.Lined insists issued) (tables : HandleTables) (status : Status) :
    ∃ s : ContactScene ρ, (Manager.contacts server list data : Manager σ ρ).statusChanged tables
        status = Manager.close server s ∧
      s.list.Lined insists issued ∧ ∀ e ∈ s.effects, e.IsFair insists := by
  by_cases hgone : status = .disconnected
  · refine ⟨(ContactScene.mk list data tables []).disconnect, ?_, ?_⟩
    · simp only [Manager.statusChanged, if_pos hgone]
    · obtain ⟨hlined, effects, heffects, hfair⟩ :=
        ContactScene.lined_disconnect ⟨list, data, tables, []⟩
      rw [heffects]
      exact ⟨hlined, hfair⟩
  · refine ⟨⟨list, data, tables, []⟩, ?_, h, fun e he => absurd he List.not_mem_nil⟩
    simp only [Manager.statusChanged, if_neg hgone]

theorem Ordered.notifyAt (h : Ordered kinds due insists c) {status : Status} {seat : Nat}
    (hnotify : c.notifyAt status seat = .ok c₁) : Goes kinds due insists asked c c₁ := by
  unfold Connection.notifyAt at hnotify
  split at hnotify
  · cases hnotify
    exact .refl h
  case h_2 m hm =>
    have hrecorded : Ordered kinds due insists (c.record [.notified seat status]) :=
      h.undisturbed (.record c (by simp))
    have hoffers : (c.record [.notified seat status]).offers = c.offers :=
      offers_record c (by simp)
    have hkind := h.isCustom hm
    cases m with
    | custom b state =>
      obtain ⟨hordered, htokens, hoffers'⟩ := hrecorded.turn hm hnotify rfl trivial
      refine .of_offers hordered htokens (hoffers'.trans hoffers)
        (speaks_addressed rfl hnotify fun hlist => ?_)
      cases hkind.symm.trans hlist
    | contacts server list data =>
      have hlist : list.Lined insists c.ledger.tokens := h.lined seat _ hm
      obtain ⟨s, hs, hlined, hfair⟩ := lined_statusChanged hlist c.tables status
      rw [hs] at hnotify
      obtain ⟨hordered, htokens, hoffers'⟩ := hrecorded.turn hm hnotify rfl hlined
      refine .of_offers hordered htokens (hoffers'.trans hoffers)
        (speaks_addressed rfl hnotify fun _ => ?_)
      obtain ⟨events, hlog, howned, -⟩ := owned_takeTurn hrecorded.flight hfair hnotify
      exact ⟨events, hlog, howned⟩

theorem Ordered.notifyAll (h : Ordered kinds due insists c) {status : Status} {seats : List Nat}
    (hnotify : seats.foldlM (Connection.notifyAt status) c = .ok c₁) :
    Goes kinds due insists asked c c₁ := by
  induction seats generalizing c with
  | nil =>
    cases hnotify
    exact .refl h
  | cons seat seats ih =>
    obtain ⟨c', hfirst, hrest⟩ := Except.bind_eq_ok.mp (by rwa [List.foldlM_cons] at hnotify)
    have hgoes : Goes kinds due insists asked c c' := h.notifyAt hfirst
    exact hgoes.trans (ih hgoes.ordered hrest)

theorem speaks_withdraw (c : Connection σ ρ) : c.Speaks kinds due c.withdraw := by
  unfold withdraw
  split
  · exact .of_idle rfl (by simp [Event.IsIdle])
  · exact .of_log rfl

theorem speaks_finishShutdown (c : Connection σ ρ) : c.Speaks kinds due c.finishShutdown := by
  unfold Connection.finishShutdown
  split
  · have hmarked : c.Speaks kinds due { c with shutDown := true } := .of_log rfl
    refine (hmarked.trans (speaks_withdraw _)).trans (.of_idle rfl fun e he => ?_)
    obtain ⟨call, -, rfl⟩ := List.mem_map.mp he
    exact rfl
  · exact .of_log rfl

theorem speaks_tearDown (c : Connection σ ρ) : c.failOutstanding.Speaks kinds due c.tearDown := by
  have hforgotten : ∀ c : Connection σ ρ, c.Speaks kinds due c.forgetInterests := by
    refine fun c => .of_idle rfl fun e he => ?_
    obtain ⟨client, -, rfl⟩ := List.mem_map.mp he
    trivial
  have hshut : ∀ c : Connection σ ρ, c.Speaks kinds due c.shutDownBackend := by
    intro c
    have hhook : c.Speaks kinds due (c.record [.hook .shutDown]) :=
      .of_idle rfl (by simp [Event.IsIdle])
    unfold shutDownBackend
    dsimp only
    split
    · exact hhook
    · exact hhook.trans (speaks_finishShutdown _)
  have hforgot : c.failOutstanding.Speaks kinds due c.failOutstanding.forgetSelf := .of_log rfl
  exact (hforgot.trans (hforgotten _)).trans (hshut _)

theorem Ordered.tearDown (h : Ordered kinds due insists c) :
    Goes kinds due insists asked c c.tearDown := by
  have hfailed : Goes kinds due insists asked c c.failOutstanding := by
    refine .of_offers ⟨h.kinds, h.lined, fun token p hp => nomatch hp⟩ rfl ?_
      (.of_idle rfl fun e he => ?_)
    · refine offers_record _ fun e he seat r heq => ?_
      obtain ⟨call, -, rfl⟩ := List.mem_map.mp he
      cases heq
    · obtain ⟨call, -, rfl⟩ := List.mem_map.mp he
      trivial
  exact hfailed.trans
    (hfailed.ordered.goes_undisturbed (undisturbed_tearDown c) (speaks_tearDown c))

theorem Ordered.enter (h : Ordered kinds due insists c) {status : Status} {reason : StatusReason}
    (henter : c.enter status reason = .ok c₁) : Goes kinds due insists asked c c₁ := by
  obtain ⟨told, htold, henter⟩ := Except.bind_eq_ok.mp henter
  cases henter
  have hchanged : Goes kinds due insists asked c
      ({ c with status }.emit (.statusChanged status reason)) := by
    refine h.goes_undisturbed ⟨rfl, rfl, rfl, offers_record _ (by simp)⟩ ?_
    exact .of_idle rfl (by simp [Event.IsIdle])
  have hhooked : Goes kinds due insists asked c
      (({ c with status }.emit (.statusChanged status reason)).record
        ((hookFor c.status status).toList.map .hook)) := by
    refine hchanged.trans (hchanged.ordered.goes_record (fun e he => ?_) fun e he seat r heq => ?_)
    · obtain ⟨hook, -, rfl⟩ := List.mem_map.mp he
      trivial
    · obtain ⟨hook, -, rfl⟩ := List.mem_map.mp he
      cases heq
  have htold' := hhooked.trans (hhooked.ordered.notifyAll htold)
  split
  · exact htold'.trans htold'.ordered.tearDown
  · exact htold'

theorem Ordered.changeStatus (h : Ordered kinds due insists c) {status : Status}
    {reason : StatusReason} {outcome : Except TransitionError Unit}
    (hchange : c.changeStatus status reason = .ok (outcome, c₁)) :
    Goes kinds due insists asked c c₁ := by
  rcases changeStatus_eq_ok hchange with rfl | ⟨-, henter⟩ | ⟨-, c', hfirst, hsecond⟩
  · exact .refl h
  · exact h.enter henter
  · have hgoes : Goes kinds due insists asked c c' := h.enter hfirst
    exact hgoes.trans (hgoes.ordered.enter hsecond)

theorem Ordered.connect (h : Ordered kinds due insists c) {outcome : Except Error Unit}
    (hconnect : c.connect = .ok (outcome, c₁)) : Goes kinds due insists asked c c₁ := by
  rcases connect_cases hconnect with ⟨-, rfl⟩ | ⟨-, changed, hchange⟩
  · exact .refl h
  · have hhook : Goes kinds due insists asked c (c.record [.hook .startConnecting]) :=
      h.goes_record (by simp [Event.IsIdle]) (by simp)
    exact hhook.trans (hhook.ordered.changeStatus hchange)

theorem Ordered.disconnect (h : Ordered kinds due insists c) {call : CallId}
    (hdisconnect : c.disconnect call = .ok c₁) : Goes kinds due insists asked c c₁ := by
  have hasks : Goes kinds due insists asked c
      { c with disconnectCalls := c.disconnectCalls ++ [call] } :=
    h.goes_undisturbed ⟨rfl, rfl, rfl, rfl⟩ (.of_log rfl)
  rcases disconnect_cases hdisconnect with ⟨-, rfl⟩ | ⟨-, -, rfl⟩ | ⟨-, -, changed, hchange⟩
  · exact h.goes_record (by simp [Event.IsIdle, Reply.channel?]) (by simp)
  · exact hasks
  · exact hasks.trans (hasks.ordered.changeStatus hchange)

/-! ## Requests -/

variable {r : ChannelRequest}

/-- A manager is asked for a channel. -/
theorem Ordered.offerAt (h : Ordered kinds due insists c)
    (hissued : r.token.number ≤ c.ledger.tokens) (hinsists : insists r.token → r.method = .create)
    {seat : Nat} {o : Offer} (hoffer : c.offerAt r seat = .ok (o, c₁)) :
    Goes kinds due insists (some r) c c₁ := by
  unfold Connection.offerAt at hoffer
  split at hoffer
  · cases hoffer
    exact .refl h
  case h_2 m hm =>
    obtain ⟨c', hturn, heq⟩ := Except.map_eq_ok.mp hoffer
    cases heq
    have hoffers := offers_offered c seat r
    have hasked : ∀ o ∈ [(seat, r)], some r = some o.2 := by simp
    have hrecorded : Ordered kinds due insists (c.record [.offered seat r]) :=
      ⟨h.kinds, h.lined, h.flight⟩
    have hkind := h.isCustom hm
    cases m with
    | custom b state =>
      obtain ⟨hordered, htokens, hoffers'⟩ := hrecorded.turn hm hturn rfl trivial
      refine ⟨hordered, htokens, ⟨_, hoffers'.trans hoffers, hasked⟩,
        speaks_addressed rfl hturn fun hlist => ?_⟩
      cases hkind.symm.trans hlist
    | contacts server list data =>
      let s : ContactScene ρ := ⟨list, data, c.tables, []⟩
      have hlist : s.list.Lined insists c.ledger.tokens := h.lined seat _ hm
      obtain ⟨hlined, hfair⟩ : (s.offer server r).2.list.Lined insists c.ledger.tokens ∧ _ :=
        ContactScene.lined_offer hissued hinsists hlist
      obtain ⟨hordered, htokens, hoffers'⟩ := hrecorded.turn hm hturn rfl hlined
      refine ⟨hordered, htokens, ⟨_, hoffers'.trans hoffers, hasked⟩,
        speaks_addressed rfl hturn fun _ => ?_⟩
      rcases hfair with ⟨effects, heffects, hfair⟩ | ⟨channel, hknown⟩
      · have hall : ∀ e ∈ (s.offer server r).2.effects, e.IsFair insists := by
          rw [heffects]
          exact hfair
        obtain ⟨events, hlog, howned, -⟩ := owned_takeTurn hrecorded.flight hall hturn
        exact ⟨events, hlog, howned⟩
      · exact owned_of_known hknown hturn _

theorem Ordered.offerTo (h : Ordered kinds due insists c)
    (hissued : r.token.number ≤ c.ledger.tokens) (hinsists : insists r.token → r.method = .create)
    {seats : List Nat} {o : Offer} (hoffer : c.offerTo r seats = .ok (o, c₁)) :
    Goes kinds due insists (some r) c c₁ := by
  induction seats generalizing c with
  | nil =>
    cases hoffer
    exact .refl h
  | cons seat seats ih =>
    obtain ⟨⟨o', c'⟩, hfirst, hrest⟩ := Except.bind_eq_ok.mp hoffer
    have hgoes := h.offerAt hissued hinsists hfirst
    cases o' with
    | accepted =>
      cases hrest
      exact hgoes
    | declined => exact hgoes.trans (ih hgoes.ordered (hgoes.tokens ▸ hissued) hrest)

theorem Ordered.refuse (h : Ordered kinds due insists c) (r : ChannelRequest) :
    Goes kinds due insists asked c (c.refuse r) := by
  unfold Connection.refuse
  split
  · exact .refl h
  case h_2 p ledger hclaim =>
    obtain ⟨-, rfl⟩ := RequestLedger.claim_eq_ok_iff.mp hclaim
    refine .of_offers ⟨h.kinds, h.lined, h.flight.without _⟩ rfl (offers_record _ (by simp))
      (.of_idle rfl fun e he => ?_)
    exact List.mem_singleton.mp he ▸ trivial

/-- A request that is accepted was offered. -/
theorem offered_of_accepted {seats : List Nat} (hoffer : c.offerTo r seats = .ok (.accepted, c₁)) :
    ∃ o ∈ c₁.offers, o.2 = r := by
  induction seats generalizing c with
  | nil => cases hoffer
  | cons seat seats ih =>
    obtain ⟨⟨o, c'⟩, hfirst, hrest⟩ := Except.bind_eq_ok.mp hoffer
    cases o with
    | accepted =>
      cases hrest
      rcases offerAt_cases hfirst with ⟨-, hdeclined, -⟩ | ⟨m, -, -, -, -, hoffers⟩
      · cases hdeclined
      · exact ⟨(seat, r), by simp [hoffers], rfl⟩
    | declined => exact ih hrest

end Connection

end Telepathy

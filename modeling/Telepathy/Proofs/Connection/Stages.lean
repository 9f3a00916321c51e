import Telepathy.Connection.Operation
import Telepathy.Proofs.Connection.Accounts
import Telepathy.Proofs.Connection.Custody
import Telepathy.Proofs.Connection.Exchanges
import Telepathy.Proofs.Connection.Transitions
import Telepathy.Proofs.ContactList.Acts
import Telepathy.Proofs.ContactList.Deeds

set_option autoImplicit false

/-!
# What an operation does, stage by stage

Every operation of a connection is a chain of a few kinds of stages: a manager takes its turn, a
report is carried out, the connection deals with the bus, it says something, it exchanges
references, it enters a status, the local user is found out or forgotten, or something else changes
that concerns nobody but clients. Only the first two concern channels, and only three kinds are
about the place of the connection on the bus. What holds across each stage holds across every
operation.

A stage is one of an operation on the connection `start`. Of handles that the operation speaks of it
says that they are in use, provided that the operation is apt.
-/

namespace Telepathy

variable {σ ρ : Type}

/-- An event by which nothing happens to names, objects, channels or the local user, and that is no
manager's. -/
def Event.IsPlain : Event → Prop
  | .signal _ (.statusChanged _ _) => True
  | .nameClaimed _ _ | .nameReleased _ | .objectExported _ _ _ | .objectWithdrawn _ => False
  | .signal _ _ | .called _ _ => False
  | _ => True

/-- An operation by which nobody takes a reference on a handle that is not in use: a lookup finds
its target in the table that it was made for, and the new state of a manager and the new data of a
server hold only what is in use. -/
def Operation.Careful (c : Connection σ ρ) : Operation σ ρ → Prop
  | .lookupFound ticket entity _ =>
    ∀ p, c.ledger.parked.get? ticket = some p → p.request.entity = entity
  | .changeManager seat f => ∀ b state, c.managers[seat]? = some (.custom b state) →
    ∀ r ∈ b.holds (f state), c.tables.isValid r = true
  | .changeServer seat names f => ∀ server list data contacts,
    c.managers[seat]? = some (.contacts server list data) →
      (c.tables.contact.resolveSet names).1 = .ok contacts →
        ∀ h ∈ server.holds (f contacts data), HandleTables.isValid
          { c.tables with contact := (c.tables.contact.resolveSet names).2 } ⟨.contact, h⟩ = true
  | _ => True

/-- Such an operation on tables that are in order. -/
structure Operation.Apt (op : Operation σ ρ) (c : Connection σ ρ) : Prop where
  sound : c.tables.Sound
  careful : op.Careful c

/-- A request that an operation parks is the one it makes. -/
def Operation.Parks (op : Operation σ ρ) (p : ParkedRequest) : Prop :=
  ∃ method properties, op = .request p.call method properties ∧
    properties.validate method = .ok p.request

/-- Whatever is parked after a stage of an operation was parked before, or is parked by it. -/
def Operation.ParksOnly (op : Operation σ ρ) (l l' : RequestLedger) : Prop :=
  ∀ ticket p, l'.parked.get? ticket = some p → l.parked.get? ticket = some p ∨ op.Parks p

namespace Operation.ParksOnly

variable {op : Operation σ ρ} {l l₁ l₂ : RequestLedger}

theorem of_parked (h : l₁.parked = l.parked) : op.ParksOnly l l₁ :=
  fun _ _ hp => .inl (h ▸ hp)

theorem refl (l : RequestLedger) : op.ParksOnly l l := of_parked rfl

theorem trans (h : op.ParksOnly l l₁) (h' : op.ParksOnly l₁ l₂) : op.ParksOnly l l₂ :=
  fun ticket p hp => (h' ticket p hp).elim (h ticket p) .inr

/-- To park nothing any more is to park nothing new. -/
theorem of_empty (h : l₁.parked = .empty) : op.ParksOnly l l₁ := by
  intro ticket p hp
  rw [h, SortedMap.get?_empty] at hp
  cases hp

end Operation.ParksOnly

/-- Of the requests whose tokens had been issued by then, the same are in flight. -/
def RequestLedger.Retains (issued : Nat) (l l' : RequestLedger) : Prop :=
  ∀ token, token.number ≤ issued → l'.inFlight.get? token = l.inFlight.get? token

theorem RequestLedger.Retains.of_inFlight {issued : Nat} {l l' : RequestLedger}
    (h : l'.inFlight = l.inFlight) : Retains issued l l' :=
  fun token _ => by rw [h]

/-- How a call to the manager at `seat` ends, if it is made in the course of `op` on `start` while
the connection has the status `status` and these tables. -/
inductive Manager.Ends (start : Connection σ ρ) (op : Operation σ ρ) (seat : Nat) (status : Status)
    (tables : HandleTables) (m : Manager σ ρ) : Turn σ ρ → Prop
  | offer {r : ChannelRequest} (htarget : op.Apt start →
      ∀ h, r.target = some h → tables.isValid ⟨r.entity, h⟩ = true) :
      Ends start op seat status tables m (m.offer tables r).2
  | statusChanged : Ends start op seat status tables m (m.statusChanged tables status)
  | performContacts {named : ContactOperation (List ContactName)} {contact : HandleTable}
      {resolved : ContactOperation (SortedSet Handle)} {out : Except Error Unit × Turn σ ρ}
      (hop : op = .contacts seat named) (hresolve : (named.resolve contact).1 = .ok resolved)
      (hnamed : op.Apt start →
        ∀ h ∈ resolved.contacts, tables.isValid ⟨.contact, h⟩ = true)
      (h : m.performContacts? tables resolved = some out) :
      Ends start op seat status tables m out.2
  | changeServer {names : List ContactName} {f : SortedSet Handle → ρ → ρ}
      {contacts : SortedSet Handle} {t : Turn σ ρ} (hop : op = .changeServer seat names f)
      (hstart : start.managers[seat]? = some m)
      (hfound : (start.tables.contact.resolveSet names).1 = .ok contacts)
      (htables : tables =
        { start.tables with contact := (start.tables.contact.resolveSet names).2 })
      (h : m.changeServer? tables (f contacts) = some t) : Ends start op seat status tables m t
  | changeState {f : σ → σ} {t : Turn σ ρ} (hop : op = .changeManager seat f)
      (hstart : start.managers[seat]? = some m) (htables : tables = start.tables)
      (h : m.changeState? tables f = some t) : Ends start op seat status tables m t

/-! ## Contacts that are named -/

namespace ContactOperation

theorem interns_resolve (named : ContactOperation (List ContactName)) (ts : HandleTables) :
    ts.Interns { ts with contact := (named.resolve ts.contact).2 } := by
  cases named with
  | contactsChanged changed departed =>
    have hchanged := ts.interns_resolveSet changed
    simp only [resolve]
    split
    case h_1 heq =>
      rw [heq] at hchanged
      exact hchanged
    case h_2 t' heq =>
      rw [heq] at hchanged
      exact hchanged.trans (HandleTables.interns_resolveSet { ts with contact := t' } departed)
  | blockingChanged contacts => exact ts.interns_resolveSet contacts
  | groupsChanged contacts added removed => exact ts.interns_resolveSet contacts
  | addMembers path contacts message => exact ts.interns_resolveSet contacts
  | removeMembers path contacts => exact ts.interns_resolveSet contacts
  | _ => exact .refl ts

/-- The contacts that an operation names are in use once they are found. -/
theorem isValid_of_resolve {named : ContactOperation (List ContactName)} {ts : HandleTables}
    (hsound : ts.Sound) {resolved : ContactOperation (SortedSet Handle)}
    (hfound : (named.resolve ts.contact).1 = .ok resolved) :
    ∀ h ∈ resolved.contacts, HandleTables.isValid
      { ts with contact := (named.resolve ts.contact).2 } ⟨.contact, h⟩ = true := by
  cases named with
  | contactsChanged changed departed =>
    have hchanged := ts.interns_resolveSet changed
    simp only [resolve] at hfound ⊢
    split at hfound
    case h_1 => cases hfound
    case h_2 changed' t' heq =>
      obtain ⟨departed', hdeparted, rfl⟩ := Except.map_eq_ok.mp hfound
      have hset : (ts.contact.resolveSet changed).1 = .ok changed' := by rw [heq]
      have hfirst := HandleTables.isValid_of_resolveSet hsound hset
      rw [heq] at hchanged hfirst
      have hrest := HandleTables.interns_resolveSet { ts with contact := t' } departed
      intro h hh
      rcases List.mem_append.mp hh with hh | hh
      · exact hrest.keeps _ (hfirst h hh)
      · exact HandleTables.isValid_of_resolveSet (hchanged.sound hsound) hdeparted h hh
  | blockingChanged contacts =>
    obtain ⟨found, hset, rfl⟩ := Except.map_eq_ok.mp hfound
    exact HandleTables.isValid_of_resolveSet hsound hset
  | groupsChanged contacts added removed =>
    obtain ⟨found, hset, rfl⟩ := Except.map_eq_ok.mp hfound
    exact HandleTables.isValid_of_resolveSet hsound hset
  | addMembers path contacts message =>
    obtain ⟨found, hset, rfl⟩ := Except.map_eq_ok.mp hfound
    exact HandleTables.isValid_of_resolveSet hsound hset
  | removeMembers path contacts =>
    obtain ⟨found, hset, rfl⟩ := Except.map_eq_ok.mp hfound
    exact HandleTables.isValid_of_resolveSet hsound hset
  | _ =>
    cases hfound
    exact fun h hh => absurd hh List.not_mem_nil

end ContactOperation

/-! ## What becomes of the tables -/

namespace Manager

variable {m : Manager σ ρ} {tables : HandleTables}

theorem sustains_finish (tables : HandleTables) (b : Behaviour σ) (old new : σ)
    (effects : List Effect) :
    tables.Sustains (finish tables b old new effects : Turn σ ρ).tables :=
  (tables.sustains_retainAll _).trans (HandleTables.sustains_releaseAll _ _)

theorem sustains_offer (m : Manager σ ρ) (tables : HandleTables) (r : ChannelRequest) :
    tables.Sustains (m.offer tables r).2.tables := by
  cases m with
  | custom b state => exact sustains_finish _ _ _ _ _
  | contacts server list data =>
    have hacts : ContactScene.Acts server ContactScene.anyChannel ⟨list, data, tables, []⟩
        (ContactScene.offer server ⟨list, data, tables, []⟩ r).2 := ContactScene.acts_offer _ r
    exact hacts.sustains

/-- No call to a manager takes a handle out of use. -/
theorem Ends.sustains {start : Connection σ ρ} {op : Operation σ ρ} {seat : Nat} {status : Status}
    {t : Turn σ ρ} (h : m.Ends start op seat status tables t) : tables.Sustains t.tables := by
  cases h with
  | offer htarget => exact m.sustains_offer tables _
  | statusChanged =>
    cases m with
    | custom b state => exact sustains_finish _ _ _ _ _
    | contacts server list data =>
      simp only [Manager.statusChanged, close]
      split
      · exact ContactScene.sustains_disconnect ⟨list, data, tables, []⟩
      · exact .refl _
  | performContacts hop hresolve hnamed hperform =>
    cases m with
    | custom b state => cases hperform
    | contacts server list data =>
      rw [← Option.some.inj hperform]
      exact ContactScene.sustains_perform ⟨list, data, tables, []⟩ _
  | changeServer hop hstart hfound htables hchange =>
    cases m <;> cases hchange
    exact tables.sustains_exchangeContacts _ _
  | changeState hop hstart htables hchange =>
    cases m <;> cases hchange
    exact sustains_finish _ _ _ _ _

end Manager

namespace Connection

theorem sustains_settle {c c₁ : Connection σ ρ} {r : Report} (h : c.settle r = .ok c₁) :
    c.tables.Sustains c₁.tables := by
  obtain ⟨s, -, rfl⟩ := settle_cases h
  exact c.tables.sustains_releaseAll _

theorem sustains_performAll {c c₁ : Connection σ ρ} {seat : Nat} {effects : List Effect}
    (h : effects.foldlM (perform seat) c = .ok c₁) : c.tables.Sustains c₁.tables := by
  refine List.foldlM_rel (R := fun c c₁ : Connection σ ρ => c.tables.Sustains c₁.tables)
    (fun c => .refl _) .trans (fun {c e c₁} h => ?_) h
  cases e with
  | report r => exact sustains_settle (Except.mapError_eq_ok.mp h)
  | signal path s =>
    cases h
    exact .refl _
  | called call =>
    cases h
    exact .refl _

theorem sustains_takeTurn {c c₁ : Connection σ ρ} {seat : Nat} {t : Turn σ ρ}
    (h : c.takeTurn seat t = .ok c₁) : t.tables.Sustains c₁.tables := by
  have hperformed := sustains_performAll h
  exact hperformed

/-! ## On the bus -/

/-- What is done about the place of a connection on the bus touches nothing else, and is no
signal. -/
structure OnBus (c c' : Connection σ ρ) : Prop where
  frame : c' =
    { c with
      bus := c'.bus, registered := c'.registered, shutDown := c'.shutDown, log := c'.log }
  events : ∃ events, c'.log = c.log ++ events ∧ ∀ path s, .signal path s ∉ events

theorem onBus_record (c : Connection σ ρ) {events : List Event}
    (h : ∀ path s, .signal path s ∉ events) : c.OnBus (c.record events) :=
  ⟨rfl, events, rfl, h⟩

theorem onBus_register (c : Connection σ ρ) : c.OnBus c.register.2 := by
  unfold Connection.register
  split
  · exact ⟨rfl, [], (List.append_nil _).symm, by simp⟩
  · split
    · exact onBus_record c (by simp)
    · dsimp only
      split
      · exact ⟨rfl, _, List.append_assoc _ _ _, by simp⟩
      · exact ⟨rfl, _, List.append_assoc _ _ _, by simp⟩

theorem onBus_loseName (c : Connection σ ρ) : c.OnBus c.loseName.2 := by
  unfold loseName
  split
  · exact onBus_record c (by simp)
  · exact ⟨rfl, _, rfl, by simp⟩

theorem onBus_losePath (c : Connection σ ρ) : c.OnBus c.losePath.2 := by
  unfold losePath
  split
  · exact onBus_record c (by simp)
  · exact ⟨rfl, _, rfl, by simp⟩

theorem onBus_leave (c : Connection σ ρ) : c.OnBus { c with shutDown := true }.withdraw := by
  unfold withdraw
  split
  · exact ⟨rfl, _, rfl, by simp⟩
  · exact ⟨rfl, [], (List.append_nil _).symm, by simp⟩

/-! ## Stages -/

/-- What is said when the local user is found out: the news, if it is any to connected clients. -/
def selfNews (c : Connection σ ρ) (h : Handle) : List Event :=
  if c.self ≠ some h ∧ c.status = .connected then
    [.signal c.names.path (.selfContactChanged h ((c.tables.contact.inspect h).getD ""))]
  else []

theorem mem_selfNews {c : Connection σ ρ} {h : Handle} {e : Event} (he : e ∈ c.selfNews h) :
    (c.self ≠ some h ∧ c.status = .connected) ∧
      e = .signal c.names.path (.selfContactChanged h ((c.tables.contact.inspect h).getD "")) := by
  unfold selfNews at he
  split at he
  case isTrue hnews => exact ⟨hnews, List.mem_singleton.mp he⟩
  case isFalse => cases he

theorem setSelf_eq {c : Connection σ ρ} (hstatus : c.status ≠ .disconnected) (h : Handle) :
    c.setSelf h =
      ({ c with
        self := some h
        tables := c.tables.exchangeContacts [h] c.self.toList }.record (c.selfNews h)) := by
  unfold setSelf selfNews
  rw [if_neg hstatus]
  dsimp only
  split
  · rfl
  · rw [record, List.append_nil]

/-- One stage of an operation on `start`. -/
inductive Stage (start : Connection σ ρ) (op : Operation σ ρ) :
    Connection σ ρ → Connection σ ρ → Prop
  | turn {c c' : Connection σ ρ} {seat : Nat} {m : Manager σ ρ} {t : Turn σ ρ}
      (hm : c.managers[seat]? = some m) (ht : m.Ends start op seat c.status c.tables t)
      (h : c.takeTurn seat t = .ok c') : Stage start op c c'
  | settle {c c' : Connection σ ρ} {r : Report} (hop : op = .report r) (h : c.settle r = .ok c') :
      Stage start op c c'
  | register (c : Connection σ ρ) (hop : op = .register) : Stage start op c c.register.2
  | loseName (c : Connection σ ρ) (hop : op = .loseName) : Stage start op c c.loseName.2
  | losePath (c : Connection σ ρ) (hop : op = .losePath) : Stage start op c c.losePath.2
  /-- The shutdown is over. -/
  | leave (c : Connection σ ρ) (hstatus : c.status = .disconnected) (hover : c.shutDown = false) :
      Stage start op c { c with shutDown := true }.withdraw
  | say (c : Connection σ ρ) {events : List Event} (h : ∀ e ∈ events, e.IsPlain) :
      Stage start op c (c.record events)
  | status (c : Connection σ ρ) {status : Status} (hroute : c.status.route status = .ok .direct)
      (hself : status = .connected → c.self.isSome = true) : Stage start op c { c with status }
  /-- References are exchanged for requests, or for those who keep some under names. Handles are
  reclaimed only where that is asked for, or at the end of the connection, a request is parked only
  where it is made, and what was in flight before the operation leaves only at the end. -/
  | account (c : Connection σ ρ) {tables : HandleTables} {ledger : RequestLedger}
      {kept : KeptReferences} (hevolves : c.tables.Evolves tables)
      (hexchanges : op.Apt start → c.Exchanges { c with tables, ledger, kept })
      (hkeeps : c.tables.Keeps tables ∨ op = .collect ∨ c.status = .disconnected)
      (hparks : op.ParksOnly c.ledger ledger)
      (hflight : c.status = .disconnected ∧ ledger.inFlight = .empty ∨
        c.ledger.Retains start.ledger.tokens ledger) :
      Stage start op c { c with tables, ledger, kept }
  /-- The local user is found out. -/
  | setSelf (c : Connection σ ρ) {name : ContactName} {h : Handle} (hop : op = .setSelf name)
      (hstatus : c.status ≠ .disconnected)
      (hvalid : op.Apt start → c.tables.isValid ⟨.contact, h⟩ = true) :
      Stage start op c
        ({ c with
          self := some h
          tables := c.tables.exchangeContacts [h] c.self.toList }.record (c.selfNews h))
  | forgetSelf (c : Connection σ ρ) (hstatus : c.status = .disconnected) :
      Stage start op c c.forgetSelf
  /-- What clients are interested in changes. -/
  | interests (c : Connection σ ρ) (interests : InterestTable) (watched : SortedSet ClientName) :
      Stage start op c { c with interests, bus := { c.bus with watched } }
  | calls (c : Connection σ ρ) (disconnectCalls : List CallId) :
      Stage start op c { c with disconnectCalls }

/-- A chain of stages. -/
inductive Stages (start : Connection σ ρ) (op : Operation σ ρ) (c : Connection σ ρ) :
    Connection σ ρ → Prop
  | refl : Stages start op c c
  | tail {c₁ c₂ : Connection σ ρ} (h : Stages start op c c₁) (h' : Stage start op c₁ c₂) :
      Stages start op c c₂

variable {start : Connection σ ρ} {op : Operation σ ρ} {c c₁ c₂ : Connection σ ρ}

namespace Stages

theorem single (h : Stage start op c c₁) : Stages start op c c₁ := Stages.refl.tail h

theorem trans (h : Stages start op c c₁) (h' : Stages start op c₁ c₂) : Stages start op c c₂ := by
  induction h' with
  | refl => exact h
  | tail _ hlast ih => exact ih.tail hlast

/-- What holds across every stage holds across a chain. -/
theorem rel {R : Connection σ ρ → Connection σ ρ → Prop} (hrefl : ∀ c, R c c)
    (htrans : ∀ {c c₁ c₂}, R c c₁ → R c₁ c₂ → R c c₂)
    (hstage : ∀ {c c₁}, Stage start op c c₁ → R c c₁) (h : Stages start op c c₁) : R c c₁ := by
  induction h with
  | refl => exact hrefl c
  | tail _ hlast ih => exact htrans ih (hstage hlast)

end Stages

/-- A stage leaves the managers as they are, or it is the turn of one of them. -/
theorem Stage.turns (h : Stage start op c c₁) :
    c₁.managers = c.managers ∨
      ∃ seat m t, c.managers[seat]? = some m ∧ m.Ends start op seat c.status c.tables t ∧
        c.takeTurn seat t = .ok c₁ := by
  cases h with
  | turn hm ht hturn => exact .inr ⟨_, _, _, hm, ht, hturn⟩
  | settle hop hsettle => exact .inl (settle_eq_ok hsettle).2.1
  | register hop => exact .inl (undisturbed_register c).managers
  | loseName hop => exact .inl (undisturbed_loseName c).managers
  | losePath hop => exact .inl (undisturbed_losePath c).managers
  | leave hstatus hover => exact .inl (undisturbed_withdraw _).managers
  | _ => exact .inl rfl

/-- What becomes of the managers in a stage. -/
theorem Stage.managers (h : Stage start op c c₁) :
    c₁.managers = c.managers ∨
      ∃ seat m t, c.managers[seat]? = some m ∧ m.Ends start op seat c.status c.tables t ∧
        c₁.managers = c.managers.set seat t.manager := by
  rcases h.turns with hsame | ⟨seat, m, t, hm, ht, hturn⟩
  · exact .inl hsame
  · exact .inr ⟨seat, m, t, hm, ht, (takeTurn_eq_ok hturn).2.1⟩

/-! ## Small stages -/

theorem stages_say (c : Connection σ ρ) (e : Event) (h : e.IsPlain) :
    Stages start op c (c.record [e]) :=
  .single (.say c fun _ he => List.mem_singleton.mp he ▸ h)

theorem stages_sayAll {α : Type} (c : Connection σ ρ) {f : α → Event} (h : ∀ a, (f a).IsPlain)
    (l : List α) : Stages start op c (c.record (l.map f)) := by
  refine .single (.say c fun e he => ?_)
  obtain ⟨a, -, rfl⟩ := List.mem_map.mp he
  exact h a

theorem stages_answer (c : Connection σ ρ) (call : CallId) (a : CallAnswer) :
    Stages start op c (c.answer call a) := stages_say c _ trivial

theorem stages_interns (c : Connection σ ρ) {tables : HandleTables} (h : c.tables.Interns tables) :
    Stages start op c { c with tables } :=
  .single (.account c h.evolves (fun _ => exchanges_interns h) (.inl h.keeps) (.refl _)
    (.inr (.of_inFlight rfl)))

/-- To park a request, or to take one from its ticket, moves no reference. -/
theorem stages_ledger (c : Connection σ ρ) {ledger : RequestLedger}
    (hadvances : c.ledger.Advances ledger) (hflight : ledger.inFlight = c.ledger.inFlight)
    (hparks : op.ParksOnly c.ledger ledger) : Stages start op c { c with ledger } :=
  .single (.account c (.refl _) (fun _ => exchanges_ledger hadvances hflight) (.inl (.refl _))
    hparks (.inr (.of_inFlight hflight)))

theorem stages_unpark {p : ParkedRequest} {ledger : RequestLedger} {ticket : LookupTicket}
    (h : c.ledger.unpark? ticket = some (p, ledger)) : Stages start op c { c with ledger } := by
  have hadvances := RequestLedger.advances_unpark h
  obtain ⟨-, rfl⟩ := RequestLedger.unpark?_eq_some_iff.mp h
  refine stages_ledger c hadvances rfl fun ticket' p' hp' => ?_
  rw [SortedMap.get?_erase] at hp'
  split at hp'
  · cases hp'
  · exact .inl hp'

theorem stages_failLookup (c : Connection σ ρ) (ticket : LookupTicket) (e : Error) :
    Stages start op c (c.failLookup ticket e).2 := by
  unfold failLookup
  split
  · exact .refl
  case h_2 p ledger hticket => exact (stages_unpark hticket).trans (stages_answer _ _ _)

theorem stages_beginLookup (c : Connection σ ρ) {call : CallId} {r : ValidRequest}
    (hop : op.Parks ⟨call, r⟩) (entity : EntityType) (id : String) :
    Stages start op c (c.beginLookup call r entity id) := by
  have hparks : op.ParksOnly c.ledger (c.ledger.park ⟨call, r⟩) := by
    intro ticket p hp
    simp only [RequestLedger.park, SortedMap.get?_insert] at hp
    split at hp
    · cases hp
      exact .inr hop
    · exact .inl hp
  have hparked : Stages start op c ({ c with ledger := c.ledger.park ⟨call, r⟩ }.record
      [.lookup c.ledger.nextTicket entity id]) :=
    (stages_ledger c (c.ledger.advances_park _) rfl hparks).trans (stages_say _ _ trivial)
  unfold beginLookup
  dsimp only
  split
  · exact hparked
  · exact hparked.trans (stages_failLookup _ _ _)

theorem stages_nameSelf (c : Connection σ ρ) (name : ContactName) :
    Stages c (.setSelf name) c (c.nameSelf name).2 := by
  have hresolved : Stages c (.setSelf name) c (c.resolveContact name).2 :=
    stages_interns c (HandleTables.interns_resolve (e := .contact) rfl name)
  unfold nameSelf
  split
  case h_1 heq =>
    rw [heq] at hresolved
    exact hresolved
  case h_2 h c' heq =>
    have hfound : (c.tables.contact.resolve name).1 = .ok h := congrArg Prod.fst heq
    obtain rfl : (c.resolveContact name).2 = c' := congrArg Prod.snd heq
    by_cases hstatus : c.status = .disconnected
    · have hsame : (c.resolveContact name).2.setSelf h = (c.resolveContact name).2 := if_pos hstatus
      rwa [quietly, hsame]
    · have hset := setSelf_eq (c := (c.resolveContact name).2) hstatus h
      rw [quietly, hset]
      exact hresolved.tail (.setSelf _ rfl hstatus fun hapt =>
        HandleTables.isValid_of_resolve (e := .contact) hapt.sound rfl hfound)

theorem stages_applyInterest (c : Connection σ ρ) (client : ClientName)
    (change : InterestTable × InterestUpdate) :
    Stages start op c (c.applyInterest client change) := by
  have hhooks : ∀ t, (Event.hook (interestHook t)).IsPlain := fun _ => trivial
  unfold applyInterest watchAs
  cases change.2.watch with
  | keep =>
    exact (Stages.single (.interests c change.1 c.bus.watched)).trans (stages_sayAll _ hhooks _)
  | start =>
    exact ((Stages.single (.interests c change.1 (c.bus.watched.insert client))).trans
      (stages_say _ (.watched client) trivial)).trans (stages_sayAll _ hhooks _)
  | stop =>
    exact ((Stages.single (.interests c change.1 (c.bus.watched.erase client))).trans
      (stages_say _ (.unwatched client) trivial)).trans (stages_sayAll _ hhooks _)

theorem stages_internKept (c : Connection σ ρ) (entity : EntityType) (id : String)
    (keep : Option String) : Stages c op c (c.internKept entity id keep).2 := by
  unfold internKept
  split
  · exact .refl
  case h_2 h tables hintern =>
    have hissues := HandleTables.issues_of_intern hintern
    have hissued : Stages c op c { c with tables } := stages_interns c hissues.interns
    split
    · exact hissued
    case h_2 name =>
      have hkept := tables.sustains_keep c.kept name ⟨entity, h⟩
      exact hissued.tail (.account { c with tables } hkept.evolves
        (fun hapt => exchanges_keep name (hissues.isValid hapt.sound)) (.inl hkept.keeps) (.refl _)
        (.inr (.of_inFlight rfl)))

theorem stages_dropKept (c : Connection σ ρ) (name : String) :
    Stages start op c (c.dropKept name).2 :=
  have hdropped := c.tables.sustains_drop c.kept name
  .single (.account c hdropped.evolves (fun _ => exchanges_drop c name) (.inl hdropped.keeps)
    (.refl _) (.inr (.of_inFlight rfl)))

theorem stages_collect (c : Connection σ ρ) (h : op = .collect ∨ c.status = .disconnected) :
    Stages start op c c.collect.2 :=
  .single (.account c c.tables.evolves_collect (fun _ => exchanges_collect c) (.inr h) (.refl _)
    (.inr (.of_inFlight rfl)))

/-! ## The end of the connection -/

theorem stages_finishShutdown (c : Connection σ ρ) : Stages start op c c.finishShutdown := by
  unfold finishShutdown
  split
  case isTrue h =>
    have hleft : Stages start op c { c with shutDown := true }.withdraw :=
      .single (.leave c h.1 h.2)
    have hanswered : Stages start op c { c with shutDown := true }.withdraw.answerDisconnects :=
      (hleft.tail (.calls _ [])).trans (stages_sayAll _ (fun _ => by trivial) _)
    have hstatus : { c with shutDown := true }.withdraw.status = .disconnected := by
      rw [(onBus_leave c).frame]
      exact h.1
    exact hanswered.trans (stages_collect _ (.inr hstatus))
  case isFalse => exact .refl

/-- Not to watch clients any longer changes nothing else on the bus. -/
theorem foldl_unwatch (clients : List ClientName) (b : Bus) :
    clients.foldl Bus.unwatch b = { b with watched := (clients.foldl Bus.unwatch b).watched } := by
  induction clients generalizing b with
  | nil => rfl
  | cons client clients ih =>
    rw [List.foldl_cons, ih]
    rfl

theorem stages_tearDown (c : Connection σ ρ) (hstatus : c.status = .disconnected) :
    Stages start op c c.tearDown := by
  have hfailed : Stages start op c c.failOutstanding :=
    (Stages.single (.account c (c.tables.evolves_releaseAll _) (fun _ => exchanges_clear c)
      (.inl (c.tables.keeps_releaseAll _)) (.of_empty rfl) (.inl ⟨hstatus, rfl⟩))).trans
      (stages_sayAll _ (fun _ => by trivial) _)
  have hforgot : Stages start op c c.failOutstanding.forgetSelf :=
    hfailed.tail (.forgetSelf _ hstatus)
  have hforgotten : ∀ c : Connection σ ρ, Stages start op c c.forgetInterests := by
    intro c
    unfold forgetInterests
    dsimp only
    rw [foldl_unwatch]
    exact (Stages.single (.interests c _ _)).trans (stages_sayAll _ (fun _ => by trivial) _)
  have hshut : ∀ c : Connection σ ρ, Stages start op c c.shutDownBackend := by
    intro c
    have hhook : Stages start op c (c.record [.hook .shutDown]) := stages_say c _ trivial
    unfold shutDownBackend
    dsimp only
    split
    · exact hhook
    · exact hhook.trans (stages_finishShutdown _)
  exact (hforgot.trans (hforgotten _)).trans (hshut _)

/-! ## Managers -/

theorem stages_turn {seat : Nat} {m : Manager σ ρ} {t : Turn σ ρ} {e : Event} (he : e.IsPlain)
    (hm : c.managers[seat]? = some m) (ht : m.Ends start op seat c.status c.tables t)
    (h : (c.record [e]).takeTurn seat t = .ok c₁) : Stages start op c c₁ :=
  (stages_say c e he).tail (.turn hm ht h)

theorem stages_offerTo {r : ChannelRequest} (htarget : op.Apt start →
      ∀ h, r.target = some h → c.tables.isValid ⟨r.entity, h⟩ = true)
    {seats : List Nat} {o : Offer} (h : c.offerTo r seats = .ok (o, c₁)) :
    Stages start op c c₁ := by
  -- The target stays in use while one manager after another is asked.
  have hone : ∀ {c c₁ : Connection σ ρ} {seat : Nat} {o : Offer}, (op.Apt start →
        ∀ h, r.target = some h → c.tables.isValid ⟨r.entity, h⟩ = true) →
      c.offerAt r seat = .ok (o, c₁) → Stages start op c c₁ ∧ c.tables.Keeps c₁.tables := by
    intro c c₁ seat o htarget h
    unfold offerAt at h
    split at h
    · cases h
      exact ⟨.refl, .refl _⟩
    case h_2 m hm =>
      obtain ⟨c', hturn, heq⟩ := Except.map_eq_ok.mp h
      cases heq
      exact ⟨stages_turn (e := .offered seat r) trivial hm (.offer htarget) hturn,
        ((m.sustains_offer c.tables r).trans (sustains_takeTurn hturn)).keeps⟩
  induction seats generalizing c with
  | nil =>
    cases h
    exact .refl
  | cons seat seats ih =>
    obtain ⟨⟨o', c'⟩, hoffer, h⟩ := Except.bind_eq_ok.mp h
    obtain ⟨hfirst, hkeeps⟩ := hone htarget hoffer
    cases o' with
    | accepted =>
      cases h
      exact hfirst
    | declined => exact hfirst.trans (ih (fun hapt x hx => hkeeps _ (htarget hapt x hx)) h)

theorem stages_refuse (c : Connection σ ρ) {r : ChannelRequest}
    (hnew : start.ledger.tokens < r.token.number) : Stages start op c (c.refuse r) := by
  unfold refuse
  split
  · exact .refl
  case h_2 p ledger hclaim =>
    obtain ⟨hp, rfl⟩ := RequestLedger.claim_eq_ok_iff.mp hclaim
    have hps : [r.token].map c.ledger.inFlight.get? = [p].map some := by simp [hp]
    have hholds : [p].filterMap (·.target) = p.target.toList := by
      cases h : p.target <;> simp [h]
    have hclaimed := exchanges_claimed (by simp) hps
    rw [hholds] at hclaimed
    have hretains : c.ledger.Retains start.ledger.tokens (c.ledger.without [r.token]) := by
      intro token hissued
      have hother : token ∉ [r.token] := fun hmem => by
        rw [List.mem_singleton.mp hmem] at hissued
        omega
      rw [RequestLedger.get?_without, if_neg hother]
    exact (Stages.single (.account c (c.tables.evolves_releaseAll _) (fun _ => hclaimed)
      (.inl (c.tables.keeps_releaseAll _)) (.of_parked rfl) (.inr hretains))).trans
      (stages_answer _ _ _)

theorem stages_present {call : CallId} {r : ValidRequest} {target : Option Handle}
    (htokens : start.ledger.tokens ≤ c.ledger.tokens)
    (hvalid : op.Apt start →
      ∀ h, target = some h → c.tables.isValid ⟨r.entity, h⟩ = true)
    (h : c.present call r target = .ok c₁) : Stages start op c c₁ := by
  obtain ⟨⟨o, c'⟩, hoffer, h⟩ := Except.bind_eq_ok.mp h
  have htracks : op.Apt start → c.Exchanges { c with
      ledger := c.ledger.track ⟨call, r.method, target.map (Reference.mk r.entity)⟩
      tables := c.tables.retainAll (target.map (Reference.mk r.entity)).toList } := by
    refine fun hapt => exchanges_track (p := ⟨call, r.method, _⟩) fun x hx => ?_
    obtain ⟨h, hh, rfl⟩ := Option.map_eq_some_iff.mp (Option.mem_toList.mp hx)
    exact hvalid hapt h hh
  have hkeeps := c.tables.keeps_retainAll (target.map (Reference.mk r.entity)).toList
  have hnew : start.ledger.tokens < c.ledger.nextToken.number := Nat.lt_succ_of_le htokens
  have hretains : c.ledger.Retains start.ledger.tokens
      (c.ledger.track ⟨call, r.method, target.map (Reference.mk r.entity)⟩) := by
    intro token hissued
    have hother : token ≠ c.ledger.nextToken := fun heq => by
      rw [heq] at hissued
      omega
    exact SortedMap.get?_insert_ne _ _ hother
  have hoffered : Stages start op c c' :=
    (Stages.single (.account c (c.tables.evolves_retainAll _) htracks (.inl hkeeps)
      (.of_parked rfl) (.inr hretains))).trans
      (stages_offerTo (fun hapt h hh => hkeeps _ (hvalid hapt h hh)) hoffer)
  cases o with
  | accepted =>
    cases h
    exact hoffered
  | declined =>
    cases h
    exact hoffered.trans (stages_refuse c' hnew)

theorem interns_findTarget {r : ValidRequest} {found : Option Handle × HandleTables}
    (h : c.findTarget r = .ok found) : c.tables.Interns found.2 := by
  unfold findTarget at h
  split at h
  · cases h
    exact .refl _
  · obtain ⟨x, -, rfl⟩ := Except.map_eq_ok.mp h
    exact .refl _
  · obtain ⟨x, hensure, rfl⟩ := Except.map_eq_ok.mp h
    exact (HandleTables.issues_of_ensure hensure).interns

theorem isValid_of_findTarget {r : ValidRequest} {tables : HandleTables} {x : Handle}
    (hsound : c.tables.Sound) (h : c.findTarget r = .ok (some x, tables)) :
    tables.isValid ⟨r.entity, x⟩ = true := by
  unfold findTarget at h
  split at h
  · cases h
  · obtain ⟨x', hhold, heq⟩ := Except.map_eq_ok.mp h
    cases heq
    exact HandleTables.isValid_of_hold hhold
  · obtain ⟨x', hensure, heq⟩ := Except.map_eq_ok.mp h
    cases heq
    exact (HandleTables.issues_of_ensure hensure).isValid hsound

theorem stages_request {call : CallId} {method : RequestMethod} {properties : PropertyMap}
    (h : c.request call method properties = .ok c₁) :
    Stages c (.request call method properties) c c₁ := by
  unfold request at h
  split at h
  · split at h
    case h_1 r hvalidated =>
      unfold submit at h
      split at h
      case h_1 target tables hfound =>
        refine (stages_interns c (interns_findTarget hfound)).trans
          (stages_present (Nat.le_refl _) ?_ h)
        rintro hapt x rfl
        exact isValid_of_findTarget hapt.sound hfound
      case h_2 =>
        cases h
        exact stages_beginLookup c ⟨method, properties, rfl, hvalidated⟩ _ _
      case h_3 =>
        cases h
        exact stages_answer c _ _
    case h_2 =>
      cases h
      exact stages_answer c _ _
  · cases h
    exact stages_answer c _ _

theorem stages_completeLookup {ticket : LookupTicket} {entity : EntityType} {name : ContactName}
    {out : StepOutcome σ ρ} (h : c.completeLookup ticket entity name = .ok out) :
    Stages c (.lookupFound ticket entity name) c out.2 := by
  unfold completeLookup at h
  split at h
  · cases h
    exact .refl
  case h_2 t hget =>
    have ht := HandleTables.get_eq_ok.mp hget
    have hresolved : Stages c (.lookupFound ticket entity name) c
        { c with tables := c.tables.set entity (t.resolve name).2 } :=
      stages_interns c (HandleTables.interns_resolve ht name)
    dsimp only at h
    split at h
    · cases h
      exact hresolved
    case h_2 x hfound =>
      obtain ⟨⟨outcome, c'⟩, hresume, heq⟩ := Except.map_eq_ok.mp h
      cases heq
      unfold resumeLookup at hresume
      split at hresume
      · cases hresume
        exact hresolved
      case h_2 p ledger hticket =>
        obtain ⟨c'', hpresent, heq⟩ := Except.bind_eq_ok.mp hresume
        cases heq
        obtain ⟨hparked, rfl⟩ := RequestLedger.unpark?_eq_some_iff.mp hticket
        refine (hresolved.trans (stages_unpark hticket)).trans
          (stages_present (Nat.le_refl _) ?_ hpresent)
        rintro hapt x' hx'
        cases hx'
        have hentity : p.request.entity = entity :=
          hapt.careful p hparked
        rw [hentity]
        exact HandleTables.isValid_of_resolve hapt.sound ht hfound

theorem stages_changeManager {seat : Nat} {f : σ → σ} {out : StepOutcome σ ρ}
    (h : c.changeManager seat f = .ok out) : Stages c (.changeManager seat f) c out.2 := by
  unfold changeManager at h
  split at h
  · cases h
    exact .refl
  case h_2 turn hturn =>
    obtain ⟨m, hm, hchange⟩ := Option.bind_eq_some_iff.mp hturn
    obtain ⟨c', htaken, heq⟩ := Except.map_eq_ok.mp h
    cases heq
    exact .single (.turn hm (.changeState rfl hm rfl hchange) htaken)

theorem managers_of_contactListAt {seat : Nat} {m : Manager σ ρ}
    (h : c.contactListAt seat = some m) : c.managers[seat]? = some m :=
  (Option.filter_eq_some_iff.mp h).1

theorem stages_changeServer {seat : Nat} {names : List ContactName}
    {f : SortedSet Handle → ρ → ρ} {out : StepOutcome σ ρ}
    (h : c.changeServer seat names f = .ok out) :
    Stages c (.changeServer seat names f) c out.2 := by
  unfold changeServer at h
  split at h
  · cases h
    exact .refl
  case h_2 m hlist =>
    have hm := managers_of_contactListAt hlist
    have hresolved : Stages c (.changeServer seat names f) c { c with tables :=
        { c.tables with contact := (c.tables.contact.resolveSet names).2 } } :=
      stages_interns c (c.tables.interns_resolveSet names)
    dsimp only at h
    split at h
    · cases h
      exact hresolved
    case h_2 contacts hfound =>
      split at h
      · cases h
        exact hresolved
      case h_2 turn hturn =>
        obtain ⟨c', htaken, heq⟩ := Except.map_eq_ok.mp h
        cases heq
        exact hresolved.tail (.turn hm (.changeServer rfl hm hfound rfl hturn) htaken)

theorem stages_performContacts {seat : Nat} {named : ContactOperation (List ContactName)}
    {out : StepOutcome σ ρ} (h : c.performContacts seat named = .ok out) :
    Stages c (.contacts seat named) c out.2 := by
  unfold performContacts at h
  split at h
  · cases h
    exact .refl
  case h_2 m hlist =>
    have hresolved : Stages c (.contacts seat named) c { c with tables :=
        { c.tables with contact := (named.resolve c.tables.contact).2 } } :=
      stages_interns c (named.interns_resolve c.tables)
    dsimp only at h
    split at h
    · cases h
      exact hresolved
    case h_2 resolved hfound =>
      split at h
      · cases h
        exact hresolved
      case h_2 outcome turn hperform =>
        obtain ⟨c', htaken, heq⟩ := Except.map_eq_ok.mp h
        cases heq
        exact hresolved.tail (.turn (managers_of_contactListAt hlist) (.performContacts rfl hfound
          (fun hapt => ContactOperation.isValid_of_resolve hapt.sound hfound) hperform) htaken)

/-! ## Changes of status -/

theorem stages_notifyAt {seat : Nat} (h : c.notifyAt c.status seat = .ok c₁) :
    Stages start op c c₁ := by
  unfold notifyAt at h
  split at h
  · cases h
    exact .refl
  case h_2 m hm => exact stages_turn (e := .notified seat c.status) trivial hm .statusChanged h

theorem stages_notifyAll {seats : List Nat} (h : seats.foldlM (notifyAt c.status) c = .ok c₁) :
    Stages start op c c₁ := by
  induction seats generalizing c with
  | nil =>
    cases h
    exact .refl
  | cons seat seats ih =>
    obtain ⟨c', hfirst, hrest⟩ := Except.bind_eq_ok.mp (by rwa [List.foldlM_cons] at h)
    -- The next manager is told of the same status.
    rw [← (served_notifyAt hfirst).status] at hrest
    exact (stages_notifyAt hfirst).trans (ih hrest)

theorem stages_enter {status : Status} (hroute : c.status.route status = .ok .direct)
    (hself : status = .connected → c.self.isSome = true) {reason : StatusReason}
    (h : c.enter status reason = .ok c₁) : Stages start op c c₁ := by
  obtain ⟨told, htold, h⟩ := Except.bind_eq_ok.mp h
  cases h
  have hchanged : Stages start op c ({ c with status }.emit (.statusChanged status reason)) :=
    (Stages.single (.status c hroute hself)).trans (stages_say _ _ trivial)
  have htold' : Stages start op c told :=
    (hchanged.trans (stages_sayAll _ (fun _ => by trivial) _)).trans (stages_notifyAll htold)
  split
  case isTrue hgone =>
    exact htold'.trans (stages_tearDown told ((served_notifyAll htold).status.trans hgone))
  case isFalse => exact htold'

theorem stages_changeStatus {status : Status} {reason : StatusReason}
    {outcome : Except TransitionError Unit}
    (h : c.changeStatus status reason = .ok (outcome, c₁)) : Stages start op c c₁ := by
  rcases changeStatus_eq_ok h with rfl | ⟨hcheck, henter⟩ | ⟨hcheck, c', hfirst, hsecond⟩
  · exact .refl
  · exact stages_enter (route_of_checkChange hcheck) (fun hstatus =>
      isSome_self_of_checkChange (hstatus ▸ hcheck) (by decide)) henter
  · obtain ⟨hnew, rfl⟩ := Status.route_viaConnecting (route_of_checkChange hcheck)
    have hself := isSome_self_of_checkChange hcheck (by decide)
    refine (stages_enter (by rw [hnew]; rfl) (fun h => by cases h) hfirst).trans
      (stages_enter (by rw [status_entered hfirst]; rfl) (fun _ => ?_) hsecond)
    obtain ⟨events, told, -, hserved, rfl⟩ := enter_eq_ok hfirst
    rw [hserved.frame]
    exact hself

theorem stages_connect {outcome : Except Error Unit} (h : c.connect = .ok (outcome, c₁)) :
    Stages start op c c₁ := by
  rcases connect_cases h with ⟨-, rfl⟩ | ⟨-, changed, hchange⟩
  · exact .refl
  · exact (stages_say c (.hook .startConnecting) trivial).trans (stages_changeStatus hchange)

theorem stages_disconnect {call : CallId} (h : c.disconnect call = .ok c₁) :
    Stages start op c c₁ := by
  rcases disconnect_cases h with ⟨-, rfl⟩ | ⟨-, -, rfl⟩ | ⟨-, -, changed, hchange⟩
  · exact stages_answer c _ _
  · exact .single (.calls c _)
  · exact (Stages.single (.calls c _)).trans (stages_changeStatus hchange)

/-! ## Operations -/

/-- Every operation is a chain of stages. -/
theorem stages_step {out : StepOutcome σ ρ} (h : c.step op = .ok out) : Stages c op c out.2 := by
  cases op with
  | register =>
    cases h
    exact .single (.register c rfl)
  | connect =>
    obtain ⟨⟨outcome, c'⟩, hconnect, rfl⟩ := Except.map_eq_ok.mp h
    exact stages_connect hconnect
  | disconnect call =>
    obtain ⟨c', hdisconnect, rfl⟩ := Except.map_eq_ok.mp h
    exact stages_disconnect hdisconnect
  | finishShutdown =>
    cases h
    exact stages_finishShutdown c
  | changeStatus status reason =>
    obtain ⟨⟨outcome, c'⟩, hchange, rfl⟩ := Except.map_eq_ok.mp h
    exact stages_changeStatus hchange
  | setSelf contact =>
    cases h
    exact stages_nameSelf c contact
  | request call method properties =>
    obtain ⟨c', hrequest, rfl⟩ := Except.map_eq_ok.mp h
    exact stages_request hrequest
  | lookupFound ticket entity target => exact stages_completeLookup h
  | lookupFailed ticket e =>
    cases h
    exact stages_failLookup c ticket e
  | cancelLookup ticket =>
    cases h
    exact stages_failLookup c ticket _
  | addInterest client tokens =>
    cases h
    unfold addInterest
    split
    · exact .refl
    · exact stages_applyInterest c client _
  | removeInterest client tokens =>
    cases h
    exact stages_applyInterest c client _
  | clientVanished client =>
    cases h
    exact stages_applyInterest c client _
  | intern entity id keep =>
    cases h
    exact stages_internKept c entity id keep
  | drop name =>
    cases h
    exact stages_dropKept c name
  | collect =>
    cases h
    exact stages_collect c (.inl rfl)
  | report r =>
    obtain ⟨c', hsettle, rfl⟩ := Except.map_eq_ok.mp h
    exact .single (.settle rfl hsettle)
  | loseName =>
    cases h
    exact .single (.loseName c rfl)
  | losePath =>
    cases h
    exact .single (.losePath c rfl)
  | changeManager seat f => exact stages_changeManager h
  | changeServer seat names f => exact stages_changeServer h
  | contacts seat named => exact stages_performContacts h

/-! ## Runs -/

theorem run_cons {ops : List (Operation σ ρ)} :
    c.run (op :: ops) = .ok c₁ ↔ ∃ out, c.step op = .ok out ∧ out.2.run ops = .ok c₁ := by
  rw [Connection.run, List.foldlM_cons, Except.bind_eq_ok]
  constructor
  · rintro ⟨c', hstep, hrest⟩
    obtain ⟨out, hout, rfl⟩ := Except.map_eq_ok.mp hstep
    exact ⟨out, hout, hrest⟩
  · rintro ⟨out, hout, hrest⟩
    exact ⟨out.2, Except.map_eq_ok.mpr ⟨out, hout, rfl⟩, hrest⟩

/-- What no stage of an operation ends lasts throughout a run. -/
theorem keeps_run {I : Connection σ ρ → Prop}
    (hstage : ∀ {start c c₁ : Connection σ ρ} {op}, Stage start op c c₁ → I c → I c₁)
    {ops : List (Operation σ ρ)} (h : I c) (hrun : c.run ops = .ok c₁) : I c₁ := by
  induction ops generalizing c with
  | nil =>
    cases hrun
    exact h
  | cons op ops ih =>
    obtain ⟨out, hstep, hrest⟩ := run_cons.mp hrun
    have hfirst : I out.2 := (stages_step hstep).rel (R := fun c c' => I c → I c') (fun _ => id)
      (fun h h' hc => h' (h hc)) hstage h
    exact ih hfirst hrest

theorem run_append {ops ops' : List (Operation σ ρ)} :
    c.run (ops ++ ops') = .ok c₁ ↔ ∃ c', c.run ops = .ok c' ∧ c'.run ops' = .ok c₁ := by
  rw [Connection.run, List.foldlM_append, Except.bind_eq_ok]
  rfl

/-- A run in which `P` holds of every operation and what it is carried out on. -/
def Throughout (P : Connection σ ρ → Operation σ ρ → Prop) :
    Connection σ ρ → List (Operation σ ρ) → Prop
  | _, [] => True
  | c, op :: ops => P c op ∧ ∀ out, c.step op = .ok out → Throughout P out.2 ops

namespace Throughout

variable {P : Connection σ ρ → Operation σ ρ → Prop}

theorem of_forall {ops : List (Operation σ ρ)} (h : ∀ op ∈ ops, ∀ c, P c op) :
    Throughout P c ops := by
  induction ops generalizing c with
  | nil => trivial
  | cons op ops ih =>
    exact ⟨h op List.mem_cons_self c, fun _ _ => ih fun op hop => h op (.tail _ hop)⟩

/-- What holds throughout a run holds throughout its first part, and throughout the rest of it on
what the first part leads to. -/
theorem split {ops ops' : List (Operation σ ρ)} (h : Throughout P c (ops ++ ops'))
    (hrun : c.run ops = .ok c₁) : Throughout P c ops ∧ Throughout P c₁ ops' := by
  induction ops generalizing c with
  | nil =>
    cases hrun
    exact ⟨trivial, h⟩
  | cons op ops ih =>
    obtain ⟨out, hout, hrest⟩ := run_cons.mp hrun
    obtain ⟨hfirst, hlast⟩ := ih (h.2 out hout) hrest
    refine ⟨⟨h.1, fun out' hout' => ?_⟩, hlast⟩
    cases hout.symm.trans hout'
    exact hfirst

/-- What operations of which `P` holds do not end lasts throughout a run of them. -/
theorem keeps {I : Connection σ ρ → Prop} {ops : List (Operation σ ρ)} (h : Throughout P c ops)
    (hstep : ∀ {c op out}, I c → P c op → c.step op = .ok out → I out.2)
    (hc : I c) (hrun : c.run ops = .ok c₁) : I c₁ := by
  induction ops generalizing c with
  | nil =>
    cases hrun
    exact hc
  | cons op ops ih =>
    obtain ⟨out, hout, hrest⟩ := run_cons.mp hrun
    exact ih (h.2 out hout) (hstep hc h.1 hout) hrest

end Throughout

end Connection

end Telepathy

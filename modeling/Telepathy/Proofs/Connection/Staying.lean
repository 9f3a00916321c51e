import Telepathy.Proofs.Connection.Interests
import Telepathy.Proofs.Connection.Managers
import Telepathy.Proofs.ContactList.Acts

set_option autoImplicit false

/-!
# While the status stays

Only four operations are about the life of a connection: connecting, changing the status,
disconnecting and finishing the shutdown. All others leave the status alone, and what they do is
ordinary: they send no news of the status, call no hook of the connection's life, tell no manager of
a status and do not leave the bus. They keep in order what is known of people. `Stays` says this of
a stage of an operation. That nobody sends news of the status supposes that the application's own
managers leave it to the connection to speak of it; contact lists do.
-/

namespace Telepathy

/-! ## Ordinary events -/

/-- An event that is no part of the life of a connection. News of a status are none if they come
from elsewhere than `path`; without a path nothing is asked of them. -/
def Event.IsOrdinary (path : Option ObjectPath) : Event → Prop
  | .signal p (.statusChanged _ _) => path ≠ some p
  | .hook (.interested _) | .hook (.uninterested _) => True
  | .hook _ | .notified _ _ | .objectWithdrawn _ => False
  | .answered _ a => a ≠ .returned .done
  | _ => True

/-- A report is about requests and channels, and nobody who waits for those is told just that all is
done. -/
theorem RequestLedger.ordinary_of_settle {l : RequestLedger} {path : Option ObjectPath}
    {path' : ObjectPath} {r : Report} {s : Settlement} (h : l.settle path' r = .ok s) :
    ∀ e ∈ s.events, e.IsOrdinary path := by
  intro e he
  rcases mem_settle_events h he with ⟨p, signal, rfl, hmodest⟩ | ⟨call, a, rfl, hne⟩
  · cases signal with
    | statusChanged status reason => exact hmodest.elim
    | _ => trivial
  · exact hne

/-! ## Managers that leave the status to the connection -/

/-- An effect by which nobody sends news of a status from `path`, if there is a path. -/
def Effect.IsDiscreet (path : Option ObjectPath) (e : Effect) : Prop :=
  ∀ p status reason, path = some p → e ≠ .signal p (.statusChanged status reason)

theorem Effect.IsModest.isDiscreet {path : Option ObjectPath} {e : Effect} (h : e.IsModest) :
    e.IsDiscreet path := by
  rintro p status reason - rfl
  exact h

variable {σ ρ : Type}

/-- A manager of the application's own that leaves it to the connection at `path` to speak of its
status. -/
structure Behaviour.Discreet (b : Behaviour σ) (path : Option ObjectPath) : Prop where
  answer : ∀ state r, ∀ e ∈ (b.answer state r).effects, e.IsDiscreet path
  statusChanged : ∀ state status, ∀ e ∈ (b.statusChanged state status).2, e.IsDiscreet path

/-- Without a path there is nothing to leave to anybody. -/
theorem Behaviour.discreet_none (b : Behaviour σ) : b.Discreet none :=
  ⟨fun _ _ _ _ _ _ _ => nofun, fun _ _ _ _ _ _ _ => nofun⟩

namespace Manager

/-- A manager that leaves it to the connection at `path` to speak of its status. -/
def Discreet (path : Option ObjectPath) : Manager σ ρ → Prop
  | custom b _ => b.Discreet path
  | contacts _ _ _ => True

variable {path : Option ObjectPath} {m : Manager σ ρ} {tables : HandleTables}

theorem discreet_none (m : Manager σ ρ) : m.Discreet none := by
  cases m with
  | custom b state => exact b.discreet_none
  | contacts server list data => trivial

theorem discreet_lasting (path : Option ObjectPath) :
    Manager.Lasting (σ := σ) (ρ := ρ) (Manager.Discreet path) where
  offer m tables r h := by cases m <;> exact h
  statusChanged m tables status h := by cases m <;> exact h
  performContacts {m tables op out} hop _ := by
    cases m <;> cases hop
    trivial
  changeServer {m tables f t} ht _ := by
    cases m <;> cases ht
    trivial
  changeState {m tables f t} ht h := by
    cases m <;> cases ht
    exact h

/-- What a contact list does in one call, when it starts without effects. -/
theorem isModest_of_scene {list : ContactList} {data : ρ} {s : ContactScene ρ}
    (h : (ContactScene.mk list data tables []).Discreet s) : ∀ e ∈ s.effects, e.IsModest := by
  obtain ⟨effects, heffects, hmodest⟩ := h
  rw [heffects, List.nil_append]
  exact hmodest

section ContactLists

variable (server : ContactServer ρ) (list : ContactList) (data : ρ) (tables : HandleTables)

theorem isModest_offer (r : ChannelRequest) :
    ∀ e ∈ ((contacts server list data : Manager σ ρ).offer tables r).2.effects, e.IsModest :=
  isModest_of_scene (ContactScene.acts_offer (P := ContactScene.anyChannel) _ r).discreet

theorem isModest_statusChanged (status : Status) :
    ∀ e ∈ ((contacts server list data : Manager σ ρ).statusChanged tables status).effects,
      e.IsModest := by
  have hdiscreet : (ContactScene.mk list data tables []).Discreet
      (if status = .disconnected then (ContactScene.mk list data tables []).disconnect
        else ContactScene.mk list data tables []) := by
    split
    · exact ContactScene.discreet_disconnect _
    · exact .refl _
  exact isModest_of_scene hdiscreet

end ContactLists

theorem isModest_performContacts {op : ContactOperation (SortedSet Handle)}
    {out : Except Error Unit × Turn σ ρ} (h : m.performContacts? tables op = some out) :
    ∀ e ∈ out.2.effects, e.IsModest := by
  cases m <;> cases h
  exact isModest_of_scene (ContactScene.discreet_perform _ op)

theorem Discreet.offer (h : m.Discreet path) (tables : HandleTables) (r : ChannelRequest) :
    ∀ e ∈ (m.offer tables r).2.effects, e.IsDiscreet path := by
  cases m with
  | custom b state => exact h.answer state r
  | contacts server list data =>
    exact fun e he => (isModest_offer server list data tables r e he).isDiscreet

theorem Discreet.statusChanged (h : m.Discreet path) (tables : HandleTables) (status : Status) :
    ∀ e ∈ (m.statusChanged tables status).effects, e.IsDiscreet path := by
  cases m with
  | custom b state => exact h.statusChanged state status
  | contacts server list data =>
    exact fun e he => (isModest_statusChanged server list data tables status e he).isDiscreet

theorem effects_changeServer {f : ρ → ρ} {t : Turn σ ρ} (h : m.changeServer? tables f = some t) :
    t.effects = [] := by
  cases m <;> cases h
  rfl

theorem effects_changeState {f : σ → σ} {t : Turn σ ρ} (h : m.changeState? tables f = some t) :
    t.effects = [] := by
  cases m <;> cases h
  rfl

end Manager

/-- Whether an operation is about the life of a connection. -/
def Operation.isVital : Operation σ ρ → Bool
  | .connect | .disconnect _ | .finishShutdown | .changeStatus _ _ => true
  | _ => false

namespace Connection

variable {path : Option ObjectPath} {c c₁ c₂ : Connection σ ρ}

/-! ## Stages in which the status stays -/

/-- What a stage of an operation leaves as it is, and that what it does is ordinary. -/
structure Stays (path : Option ObjectPath) (c c' : Connection σ ρ) : Prop where
  frame : c' =
    { c with
      tables := c'.tables, bus := c'.bus, ledger := c'.ledger, managers := c'.managers
      self := c'.self, interests := c'.interests, registered := c'.registered, kept := c'.kept
      log := c'.log }
  seats : c'.managers.length = c.managers.length
  registered : c.registered = true → c'.registered = true
  personal : c.Personal → c'.Personal
  events : ∃ events, c'.log = c.log ++ events ∧ ∀ e ∈ events, e.IsOrdinary path

/-- Nothing is logged. -/
theorem unlogged_ordinary {log : List Event} :
    ∃ events, log = log ++ events ∧ ∀ e ∈ events, e.IsOrdinary path :=
  ⟨[], (List.append_nil _).symm, by simp⟩

namespace Stays

theorem refl (c : Connection σ ρ) : c.Stays path c := ⟨rfl, rfl, id, id, unlogged_ordinary⟩

theorem trans (h : c.Stays path c₁) (h' : c₁.Stays path c₂) : c.Stays path c₂ where
  frame := by rw [h'.frame, h.frame]
  seats := h'.seats.trans h.seats
  registered hr := h'.registered (h.registered hr)
  personal hp := h'.personal (h.personal hp)
  events := by
    obtain ⟨events, hlog, hordinary⟩ := h.events
    obtain ⟨events', hlog', hordinary'⟩ := h'.events
    refine ⟨events ++ events', by rw [hlog', hlog, List.append_assoc], fun e he => ?_⟩
    rcases List.mem_append.mp he with he | he
    · exact hordinary e he
    · exact hordinary' e he

theorem record (c : Connection σ ρ) {events : List Event}
    (h : ∀ e ∈ events, e.IsOrdinary path) : c.Stays path (c.record events) :=
  ⟨rfl, rfl, id, id, events, rfl, h⟩

theorem status (h : c.Stays path c₁) : c₁.status = c.status := by rw [h.frame]

theorem names (h : c.Stays path c₁) : c₁.names = c.names := by rw [h.frame]

end Stays

/-! ### Without managers -/

theorem stays_answer (c : Connection σ ρ) (call : CallId) {a : CallAnswer}
    (ha : a ≠ .returned .done) : c.Stays path (c.answer call a) := by
  refine .record c fun e he => ?_
  obtain rfl := List.mem_singleton.mp he
  exact ha

theorem stays_failLookup (c : Connection σ ρ) (ticket : LookupTicket) (e : Error) :
    c.Stays path (c.failLookup ticket e).2 := by
  unfold Connection.failLookup
  split
  · exact .refl c
  case h_2 p ledger _ =>
    have hledger : c.Stays path { c with ledger } := ⟨rfl, rfl, id, id, unlogged_ordinary⟩
    exact hledger.trans (stays_answer _ p.call nofun)

theorem stays_beginLookup (c : Connection σ ρ) (call : CallId) (r : ValidRequest)
    (entity : EntityType) (id : String) : c.Stays path (c.beginLookup call r entity id) := by
  have hparked : c.Stays path ({ c with ledger := c.ledger.park ⟨call, r⟩ }.record
      [.lookup c.ledger.nextTicket entity id]) :=
    ⟨rfl, rfl, fun h => h, fun h => h, _, rfl, by simp [Event.IsOrdinary]⟩
  unfold Connection.beginLookup
  dsimp only
  split
  · exact hparked
  case h_2 e _ => exact hparked.trans (stays_failLookup _ _ e)

theorem stays_register (c : Connection σ ρ) : c.Stays path c.register.2 := by
  unfold Connection.register
  split
  · exact .refl c
  · split
    · exact .record c (by simp [Event.IsOrdinary])
    case h_2 bus hname =>
      have hnamed : c.Stays path (c.record [.nameClaimed c.names.busName true]) :=
        .record c (by simp [Event.IsOrdinary])
      have hwatched := Bus.watched_claimName hname
      dsimp only
      split
      · exact hnamed.trans ⟨rfl, rfl, fun h => h, fun h => h.of_eq rfl rfl hwatched rfl, _, rfl,
          by simp [Event.IsOrdinary]⟩
      case h_2 hexport =>
        have hwatched' := (Bus.watched_exportObject hexport).trans hwatched
        exact hnamed.trans ⟨rfl, rfl, fun _ => rfl, fun h => h.of_eq rfl rfl hwatched' rfl, _, rfl,
          by simp [Event.IsOrdinary]⟩

theorem stays_loseName (c : Connection σ ρ) : c.Stays path c.loseName.2 := by
  unfold Connection.loseName
  split
  · exact .record c (by simp [Event.IsOrdinary])
  case h_2 hname =>
    exact ⟨rfl, rfl, fun h => h, fun h => h.of_eq rfl rfl (Bus.watched_claimName hname) rfl, _, rfl,
      by simp [Event.IsOrdinary]⟩

theorem stays_losePath (c : Connection σ ρ) : c.Stays path c.losePath.2 := by
  unfold Connection.losePath
  split
  · exact .record c (by simp [Event.IsOrdinary])
  case h_2 hexport =>
    exact ⟨rfl, rfl, fun h => h, fun h => h.of_eq rfl rfl (Bus.watched_exportObject hexport) rfl, _,
      rfl, by simp [Event.IsOrdinary]⟩

theorem stays_setSelf (c : Connection σ ρ) (h : Handle) : c.Stays path (c.setSelf h) := by
  unfold Connection.setSelf
  split
  · exact .refl c
  case isFalse hstatus =>
    have hset : c.Stays path
        { c with self := some h, tables := c.tables.exchangeContacts [h] c.self.toList } :=
      ⟨rfl, rfl, id, fun hp => ⟨hp.1, fun hs => absurd hs hstatus⟩, unlogged_ordinary⟩
    dsimp only
    split
    · exact hset.trans (.record _ (by simp [Event.IsOrdinary]))
    · exact hset

theorem stays_nameSelf (c : Connection σ ρ) (name : ContactName) :
    c.Stays path (c.nameSelf name).2 := by
  have hresolved : c.Stays path (c.resolveContact name).2 := ⟨rfl, rfl, id, id, unlogged_ordinary⟩
  unfold Connection.nameSelf
  generalize c.resolveContact name = resolved at hresolved
  obtain ⟨found, c'⟩ := resolved
  cases found with
  | error e => exact hresolved
  | ok h => exact hresolved.trans (stays_setSelf c' h)

theorem stays_internKept (c : Connection σ ρ) (entity : EntityType) (id : String)
    (keep : Option String) : c.Stays path (c.internKept entity id keep).2 := by
  unfold Connection.internKept
  split
  · exact .refl c
  · split
    · exact ⟨rfl, rfl, fun h => h, fun h => h, unlogged_ordinary⟩
    · exact ⟨rfl, rfl, fun h => h, fun h => h, unlogged_ordinary⟩

theorem stays_applyInterest (c : Connection σ ρ) (client : ClientName)
    (change : InterestTable × InterestUpdate)
    (hpersonal : c.Personal → (c.applyInterest client change).Personal) :
    c.Stays path (c.applyInterest client change) := by
  have hhooks : ∀ e ∈ change.2.transitions.map fun t => Event.hook (interestHook t),
      e.IsOrdinary path := by
    intro e he
    obtain ⟨t, -, rfl⟩ := List.mem_map.mp he
    cases t <;> trivial
  have hwatch : ∃ events, ({ c with interests := change.1 }.watchAs client change.2.watch).log =
      c.log ++ events ∧ ∀ e ∈ events, e.IsOrdinary path := by
    cases change.2.watch with
    | keep => exact unlogged_ordinary
    | start => exact ⟨_, rfl, by simp [Event.IsOrdinary]⟩
    | stop => exact ⟨_, rfl, by simp [Event.IsOrdinary]⟩
  have hevents : ∃ events, (c.applyInterest client change).log = c.log ++ events ∧
      ∀ e ∈ events, e.IsOrdinary path := by
    obtain ⟨events, hlog, hordinary⟩ := hwatch
    refine ⟨events ++ change.2.transitions.map fun t => .hook (interestHook t), ?_, fun e he => ?_⟩
    · rw [applyInterest, Connection.record, hlog, List.append_assoc]
    · rcases List.mem_append.mp he with he | he
      · exact hordinary e he
      · exact hhooks e he
  refine ⟨?_, ?_, fun h => ?_, hpersonal, hevents⟩
  all_goals
    unfold applyInterest watchAs
    cases change.2.watch <;> first | rfl | exact h

theorem stays_addInterest (c : Connection σ ρ) (client : ClientName) (tokens : List String) :
    c.Stays path (c.addInterest client tokens).2 := by
  unfold addInterest
  split
  · exact .refl c
  case isFalse hstatus =>
    exact stays_applyInterest c client _ fun hp =>
      hp.applyInterest (InterestTable.tracks_add _ _ _) fun hs => absurd hs hstatus

/-! ### With managers -/

theorem stays_settle {r : Report} (h : c.settle r = .ok c₁) : c.Stays path c₁ := by
  obtain ⟨s, hs, rfl⟩ := settle_cases h
  exact ⟨rfl, rfl, fun h => h, id, s.events, rfl, RequestLedger.ordinary_of_settle hs⟩

theorem stays_perform {seat : Nat} {e : Effect} (he : e.IsDiscreet path)
    (h : c.perform seat e = .ok c₁) : c.Stays path c₁ := by
  cases e with
  | report r => exact stays_settle (Except.mapError_eq_ok.mp h)
  | signal p s =>
    cases h
    refine .record c fun e hmem => ?_
    obtain rfl := List.mem_singleton.mp hmem
    cases s with
    | statusChanged status reason => exact fun hp => he p status reason hp rfl
    | _ => trivial
  | called call =>
    cases h
    exact .record c (by simp [Event.IsOrdinary])

theorem stays_performAll {seat : Nat} {effects : List Effect}
    (heffects : ∀ e ∈ effects, e.IsDiscreet path)
    (h : effects.foldlM (perform seat) c = .ok c₁) : c.Stays path c₁ := by
  induction effects generalizing c with
  | nil =>
    cases h
    exact .refl _
  | cons e effects ih =>
    obtain ⟨c', hfirst, hrest⟩ := Except.bind_eq_ok.mp (by rwa [List.foldlM_cons] at h)
    exact (stays_perform (heffects e List.mem_cons_self) hfirst).trans
      (ih (fun e he => heffects e (.tail _ he)) hrest)

theorem stays_takeTurn {seat : Nat} {t : Turn σ ρ} (ht : ∀ e ∈ t.effects, e.IsDiscreet path)
    (h : c.takeTurn seat t = .ok c₁) : c.Stays path c₁ := by
  have hplaced : c.Stays path
      { c with managers := c.managers.set seat t.manager, tables := t.tables } :=
    ⟨rfl, List.length_set, id, id, unlogged_ordinary⟩
  exact hplaced.trans (stays_performAll ht h)

/-- Managers at large may speak of any status. -/
theorem allManagers_discreet_none (c : Connection σ ρ) : AllManagers (Manager.Discreet none) c :=
  fun _ m _ => m.discreet_none

variable (hm : AllManagers (Manager.Discreet path) c)
include hm

theorem stays_offerAt {r : ChannelRequest} {seat : Nat} {o : Offer}
    (h : c.offerAt r seat = .ok (o, c₁)) : c.Stays path c₁ := by
  unfold Connection.offerAt at h
  split at h
  · cases h
    exact .refl c
  case h_2 m hseat =>
    obtain ⟨c', hturn, heq⟩ := Except.map_eq_ok.mp h
    cases heq
    have hasked : c.Stays path (c.record [.offered seat r]) :=
      .record c (by simp [Event.IsOrdinary])
    exact hasked.trans (stays_takeTurn ((hm seat m hseat).offer c.tables r) hturn)

theorem stays_offerTo {r : ChannelRequest} {seats : List Nat} {o : Offer}
    (h : c.offerTo r seats = .ok (o, c₁)) : c.Stays path c₁ := by
  induction seats generalizing c with
  | nil =>
    cases h
    exact .refl _
  | cons seat seats ih =>
    obtain ⟨⟨o', c'⟩, hoffer, h⟩ := Except.bind_eq_ok.mp h
    have hfirst := stays_offerAt hm hoffer
    cases o' with
    | accepted =>
      cases h
      exact hfirst
    | declined =>
      exact hfirst.trans
        (ih ((hm.offerAt (Manager.discreet_lasting path) r seat).of_ok hoffer) h)

theorem stays_present {call : CallId} {r : ValidRequest} {target : Option Handle}
    (h : c.present call r target = .ok c₁) : c.Stays path c₁ := by
  obtain ⟨⟨o, c'⟩, hoffer, h⟩ := Except.bind_eq_ok.mp h
  have htracked : c.Stays path { c with
      ledger := c.ledger.track ⟨call, r.method, target.map (Reference.mk r.entity)⟩
      tables := c.tables.retainAll (target.map (Reference.mk r.entity)).toList } :=
    ⟨rfl, rfl, id, id, unlogged_ordinary⟩
  have hoffered := htracked.trans (stays_offerTo hm hoffer)
  cases o with
  | accepted =>
    cases h
    exact hoffered
  | declined =>
    cases h
    refine hoffered.trans ?_
    unfold Connection.refuse
    split
    · exact .refl c'
    · exact ⟨rfl, rfl, fun h => h, id, _, rfl, by simp [Event.IsOrdinary]⟩

theorem stays_request {call : CallId} {method : RequestMethod} {properties : PropertyMap}
    (h : c.request call method properties = .ok c₁) : c.Stays path c₁ := by
  unfold Connection.request at h
  split at h
  · split at h
    case h_1 r _ =>
      unfold Connection.submit at h
      split at h
      case h_1 target tables _ =>
        have htables : c.Stays path { c with tables } := ⟨rfl, rfl, id, id, unlogged_ordinary⟩
        exact htables.trans (stays_present (c := { c with tables }) hm h)
      case h_2 =>
        cases h
        exact stays_beginLookup c _ _ _ _
      case h_3 =>
        cases h
        exact stays_answer c call nofun
    case h_2 =>
      cases h
      exact stays_answer c call nofun
  · cases h
    exact stays_answer c call nofun

theorem stays_completeLookup {ticket : LookupTicket} {entity : EntityType} {name : ContactName}
    {out : StepOutcome σ ρ} (h : c.completeLookup ticket entity name = .ok out) :
    c.Stays path out.2 := by
  unfold Connection.completeLookup at h
  split at h
  · cases h
    exact .refl c
  case h_2 t _ =>
    have htables : c.Stays path { c with tables := c.tables.set entity (t.resolve name).2 } :=
      ⟨rfl, rfl, id, id, unlogged_ordinary⟩
    dsimp only at h
    split at h
    · cases h
      exact htables
    · obtain ⟨⟨outcome, c'⟩, hresume, heq⟩ := Except.map_eq_ok.mp h
      cases heq
      unfold Connection.resumeLookup at hresume
      split at hresume
      · cases hresume
        exact htables
      case h_2 p ledger _ =>
        obtain ⟨c'', hpresent, heq⟩ := Except.bind_eq_ok.mp hresume
        cases heq
        have hunparked : c.Stays path
            { c with tables := c.tables.set entity (t.resolve name).2, ledger } :=
          htables.trans ⟨rfl, rfl, id, id, unlogged_ordinary⟩
        refine hunparked.trans (stays_present ?_ hpresent)
        exact hm

omit hm in
theorem stays_changeManager {seat : Nat} {f : σ → σ} {out : StepOutcome σ ρ}
    (h : c.changeManager seat f = .ok out) : c.Stays path out.2 := by
  unfold Connection.changeManager at h
  split at h
  · cases h
    exact .refl c
  case h_2 turn hturn =>
    obtain ⟨m, -, hchange⟩ := Option.bind_eq_some_iff.mp hturn
    obtain ⟨c', htaken, heq⟩ := Except.map_eq_ok.mp h
    cases heq
    exact stays_takeTurn (by simp [Manager.effects_changeState hchange]) htaken

omit hm in
theorem stays_changeServer {seat : Nat} {names : List ContactName}
    {f : SortedSet Handle → ρ → ρ} {out : StepOutcome σ ρ}
    (h : c.changeServer seat names f = .ok out) : c.Stays path out.2 := by
  unfold Connection.changeServer at h
  split at h
  · cases h
    exact .refl c
  case h_2 m _ =>
    have htables : c.Stays path { c with tables :=
        { c.tables with contact := (c.tables.contact.resolveSet names).2 } } :=
      ⟨rfl, rfl, id, id, unlogged_ordinary⟩
    dsimp only at h
    split at h
    · cases h
      exact htables
    · split at h
      · cases h
        exact htables
      case h_2 turn hturn =>
        obtain ⟨c', htaken, heq⟩ := Except.map_eq_ok.mp h
        cases heq
        exact htables.trans
          (stays_takeTurn (by simp [Manager.effects_changeServer hturn]) htaken)

omit hm in
theorem stays_performContacts {seat : Nat} {op : ContactOperation (List ContactName)}
    {out : StepOutcome σ ρ} (h : c.performContacts seat op = .ok out) : c.Stays path out.2 := by
  unfold Connection.performContacts at h
  split at h
  · cases h
    exact .refl c
  case h_2 m _ =>
    have htables : c.Stays path { c with tables :=
        { c.tables with contact := (op.resolve c.tables.contact).2 } } :=
      ⟨rfl, rfl, id, id, unlogged_ordinary⟩
    dsimp only at h
    split at h
    · cases h
      exact htables
    · split at h
      · cases h
        exact htables
      case h_2 outcome turn hturn =>
        obtain ⟨c', htaken, heq⟩ := Except.map_eq_ok.mp h
        cases heq
        exact htables.trans (stays_takeTurn (fun e he =>
          (Manager.isModest_performContacts hturn e he).isDiscreet) htaken)

/-! ## Operations -/

/-- All operations leave the status alone but those that are about it. -/
theorem stays_step {op : Operation σ ρ} (hop : op.isVital = false) {out : StepOutcome σ ρ}
    (h : c.step op = .ok out) : c.Stays path out.2 := by
  cases op with
  | connect => cases hop
  | disconnect call => cases hop
  | finishShutdown => cases hop
  | changeStatus status reason => cases hop
  | register =>
    cases h
    exact stays_register c
  | setSelf contact =>
    cases h
    exact stays_nameSelf c contact
  | request call method properties =>
    obtain ⟨c', hrequest, rfl⟩ := Except.map_eq_ok.mp h
    exact stays_request hm hrequest
  | lookupFound ticket entity target => exact stays_completeLookup hm h
  | lookupFailed ticket e =>
    cases h
    exact stays_failLookup c ticket e
  | cancelLookup ticket =>
    cases h
    exact stays_failLookup c ticket _
  | addInterest client tokens =>
    cases h
    exact stays_addInterest c client tokens
  | removeInterest client tokens =>
    cases h
    exact stays_applyInterest c client _ fun hp => hp.removeInterest client tokens
  | clientVanished client =>
    cases h
    exact stays_applyInterest c client _ fun hp => hp.clientVanished client
  | intern entity id keep =>
    cases h
    exact stays_internKept c entity id keep
  | drop name =>
    cases h
    exact ⟨rfl, rfl, id, id, unlogged_ordinary⟩
  | collect =>
    cases h
    exact ⟨rfl, rfl, id, id, unlogged_ordinary⟩
  | report r =>
    obtain ⟨c', hsettle, rfl⟩ := Except.map_eq_ok.mp h
    exact stays_settle hsettle
  | loseName =>
    cases h
    exact stays_loseName c
  | losePath =>
    cases h
    exact stays_losePath c
  | changeManager seat f => exact stays_changeManager h
  | changeServer seat names f => exact stays_changeServer h
  | contacts seat op => exact stays_performContacts h

end Connection

end Telepathy

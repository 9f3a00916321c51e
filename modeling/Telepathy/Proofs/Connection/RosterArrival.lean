import Telepathy.ContactList.MemoryServer
import Telepathy.Proofs.Connection.Managers
import Telepathy.Proofs.ContactList.InitialRoster

set_option autoImplicit false

/-!
# The arrival of the roster

Whatever happened on a connection before, a contact list whose roster is on its way has only vacant
channels. So when the roster arrives, the contact list shows it as the server has it.
-/

namespace Telepathy

variable {σ ρ : Type}

/-- A contact list does what its server can do, and nobody is on it before the roster is there. -/
def Manager.Awaits : Manager σ ρ → Prop
  | .custom _ _ => True
  | .contacts server list _ =>
    list.capabilities = server.capabilities ∧ list.Unfilled

theorem Manager.awaits_lasting : Manager.Lasting (Manager.Awaits (σ := σ) (ρ := ρ)) := by
  have hlists : (Manager.Awaits : Manager σ ρ → Prop) =
      Manager.OfLists fun server list =>
        list.capabilities = server.capabilities ∧ list.Unfilled := by
    funext m
    cases m <;> rfl
  rw [hlists]
  refine Manager.lasting_ofLists (fun server s r h => ?_) (fun server s op h => ?_)
    fun server s h => ?_
  · have hsettings := ContactScene.settings_offer server s r
    exact ⟨(ContactScene.capabilities_of_settings _ hsettings).trans h.1,
      ContactScene.unfilled_offer r h.2⟩
  · exact ⟨(ContactScene.capabilities_perform server _ op).trans h.1,
      ContactScene.unfilled_perform op h.2⟩
  · exact ⟨(congrArg Prod.fst (ContactScene.settings_disconnect _)).trans h.1,
      ContactScene.unfilled_disconnect⟩

theorem Manager.awaits_build (config : Config) (path : ObjectPath) (tables : HandleTables)
    (plan : ManagerPlan σ ρ) : (plan.build config path tables).1.Awaits := by
  cases plan with
  | custom b state => trivial
  | contacts server data =>
    refine ⟨congrArg Prod.fst (ContactScene.settings_openLists _),
      ContactScene.unfilled_openLists ?_⟩
    intro _ t c hc
    cases hc

namespace Connection

variable {c : Connection σ ρ}

theorem allAwait_new (backend : Backend) (config : Config) (tables : HandleTables)
    (plans : List (ManagerPlan σ ρ)) :
    AllManagers Manager.Awaits (new backend config tables plans) :=
  .of_plans fun plan _ path tables' => Manager.awaits_build config path tables' plan

/-- The connection once the contacts that an operation names have handles. -/
def naming (c : Connection σ ρ) (named : ContactOperation (List ContactName)) :
    Connection σ ρ :=
  { c with tables := { c.tables with contact := (named.resolve c.tables.contact).2 } }

theorem contactListAt_eq_some {seat : Nat} {server : ContactServer ρ} {list : ContactList}
    {data : ρ} (hm : c.managers[seat]? = some (.contacts server list data)) :
    c.contactListAt seat = some (.contacts server list data) := by
  rw [contactListAt, hm]
  rfl

/-- An operation on a contact list comes down to that of its scene. -/
theorem step_contacts {seat : Nat} {server : ContactServer ρ} {list : ContactList} {data : ρ}
    (hm : c.managers[seat]? = some (.contacts server list data))
    {named : ContactOperation (List ContactName)} {op : ContactOperation (SortedSet Handle)}
    (hop : (named.resolve c.tables.contact).1 = .ok op)
    {outcome : Except Error Unit × ContactScene ρ}
    (hperform :
      (ContactScene.mk list data (c.naming named).tables []).perform server op = outcome) :
    c.step (.contacts seat named) =
      ((c.naming named).takeTurn seat (Manager.close server outcome.2)).map fun c =>
        following .error (outcome.1, c) := by
  simp only [step, performContacts, contactListAt_eq_some hm, hop, ← hperform]
  rfl

theorem step_received {seat : Nat} {server : ContactServer ρ} {list : ContactList} {data : ρ}
    {s' : ContactScene ρ} (hm : c.managers[seat]? = some (.contacts server list data))
    (hs' : (ContactScene.mk list data c.tables []).rosterReceived server = s')
    {out : StepOutcome σ ρ} (hstep : c.step (.contacts seat .received) = .ok out) :
    out.1 = .ok .nothing ∧ out.2.managers[seat]? = some (.contacts server s'.list s'.server) := by
  have hperform : (ContactScene.mk list data (c.naming .received).tables []).perform server
      .received = (.ok (), s') := by
    rw [← hs']
    rfl
  rw [step_contacts hm rfl hperform, Except.map_eq_ok] at hstep
  obtain ⟨c', hturn, rfl⟩ := hstep
  have hseat : seat < c.managers.length := (List.getElem?_eq_some_iff.mp hm).1
  refine ⟨rfl, ?_⟩
  show c'.managers[seat]? = _
  rw [(takeTurn_eq_ok hturn).2.1]
  exact List.getElem?_set_self hseat

/-- In every run, the roster that arrives at a contact list is exactly what the list shows then. -/
theorem run_loads_roster (backend : Backend) (config : Config) (tables : HandleTables)
    (plans : List (ManagerPlan σ ρ)) {ops : List (Operation σ ρ)}
    (hrun : (new backend config tables plans).run ops = .ok c) {seat : Nat}
    {server : ContactServer ρ} {list : ContactList} {data : ρ}
    (hm : c.managers[seat]? = some (.contacts server list data))
    (hpending : list.roster = .pending)
    (hnames : (ContactScene.mk list data c.tables []).CanName server) :
    let s : ContactScene ρ := ⟨list, data, c.tables, []⟩
    let s' := s.rosterReceived server
    list.capabilities = server.capabilities ∧ s.ShowsRoster server (s.dataRead server) s' ∧
      ∀ out, c.step (.contacts seat .received) = .ok out →
        out.1 = .ok .nothing ∧
          out.2.managers[seat]? = some (.contacts server s'.list s'.server) := by
  intro s s'
  obtain ⟨hcapabilities, hunfilled⟩ :=
    (allAwait_new backend config tables plans).run Manager.awaits_lasting hrun seat _ hm
  exact ⟨hcapabilities, ContactScene.rosterReceived_showsRoster hpending hunfilled hnames,
    fun out hstep => step_received hm rfl hstep⟩

/-- A connection with one contact list. -/
def listing (groups : GroupSupport) : Connection Unit MemoryRoster :=
  .new ⟨"sample", "account", [], [], none, false, fun _ _ _ => none⟩ .standard
    ⟨.onDemand .contact, none, some (.onDemand .list), some (.onDemand .group)⟩
    [.contacts (MemoryRoster.server ⟨true, true, false, true, groups⟩ [] false) .empty]

/-- The server learns of contacts, one of whom asks and is in a group, and another is blocked; and a
client requests a group. -/
def beforeRoster : List (Operation Unit MemoryRoster) :=
  [.setSelf (.id "user"), .changeStatus .connected .requested,
    .changeServer 0 [.id "alice"] fun contacts r =>
      (r.adjust contacts fun _ => ⟨.yes, .ask, "hello"⟩).join "friends" contacts,
    .changeServer 0 [.id "bob"] fun contacts r => r.block contacts,
    .request ⟨1⟩ .create (.ofList [(Property.channelType, .text Property.contactListType),
      (Property.targetEntity, .nat 4), (Property.targetId, .text "colleagues")])]

/-- Whether the first manager is a contact list that, with its server and surroundings, satisfies
`p`. -/
def contactsWith (p : ContactServer MemoryRoster → ContactScene MemoryRoster → Bool)
    (c : Connection Unit MemoryRoster) : Bool :=
  match c.managers[0]? with
  | some (Manager.contacts server list data) => p server ⟨list, data, c.tables, []⟩
  | _ => false

theorem of_contactsWith {p : ContactServer MemoryRoster → ContactScene MemoryRoster → Bool}
    {c : Connection Unit MemoryRoster} (h : c.contactsWith p = true) :
    ∃ server list data, c.managers[0]? = some (.contacts server list data) ∧
      p server ⟨list, data, c.tables, []⟩ = true := by
  unfold contactsWith at h
  split at h
  case h_1 server list data hm => exact ⟨server, list, data, hm, h⟩
  case h_2 => cases h

/-- A group that a client requested is created, beside the one the server knows. -/
theorem beforeRoster_loaded :
    ∃ c server list data, (listing (.editable .native)).run beforeRoster = .ok c ∧
      c.managers[0]? = some (.contacts server list data) ∧
      let s : ContactScene MemoryRoster := ⟨list, data, c.tables, []⟩
      s.ShowsRoster server (s.dataRead server) (s.rosterReceived server) ∧
        (s.rosterReceived server).list.groupNames = ["colleagues", "friends"] := by
  have heval : (((listing (.editable .native)).run beforeRoster).toOption.any
      (contactsWith fun server s =>
        decide (s.list.roster = .pending ∧
          (∀ k ∈ ListKind.all, k.isSupported s.list.capabilities = true →
            s.tables.Gives .list k.name) ∧
          (∀ name ∈ s.knownGroups server, s.tables.Gives .group name) ∧
          (∀ h ∈ (server.contacts (s.dataRead server)).toList,
            ∀ name ∈ server.groupsNamed (s.dataRead server) h, s.tables.Gives .group name) ∧
          (s.rosterReceived server).list.groupNames = ["colleagues", "friends"]))) = true := by
    decide +kernel
  obtain ⟨c, hrun, hc⟩ := Except.eq_ok_of_any heval
  obtain ⟨server, list, data, hm, hs⟩ := of_contactsWith hc
  obtain ⟨hpending, hlists, hknown, hmentioned, hgroups⟩ := of_decide_eq_true hs
  obtain ⟨-, hshows, -⟩ := run_loads_roster _ _ _ _ hrun hm hpending
    ⟨hlists, hknown, fun _ => hmentioned⟩
  exact ⟨c, server, list, data, hrun, hm, hshows, hgroups⟩

/-- If the protocol has no groups, those that the server reports are passed over. -/
theorem beforeRoster_passesOverGroups :
    ∃ c server list data, (listing .none).run beforeRoster = .ok c ∧
      c.managers[0]? = some (.contacts server list data) ∧ list.roster = .pending ∧
      (∀ k ∈ ListKind.all, c.tables.Gives .list k.name) ∧ c.tables.Gives .group "friends" ∧
      (server.groups data).filterMap server.normaliseGroup = ["friends"] ∧
      ((ContactScene.mk list data c.tables []).rosterReceived server).list.groupNames = [] := by
  have heval : (((listing .none).run beforeRoster).toOption.any
      (contactsWith fun server s =>
        decide (s.list.roster = .pending ∧ (∀ k ∈ ListKind.all, s.tables.Gives .list k.name) ∧
          s.tables.Gives .group "friends" ∧
          (server.groups s.server).filterMap server.normaliseGroup = ["friends"] ∧
          (s.rosterReceived server).list.groupNames = []))) = true := by
    decide +kernel
  obtain ⟨c, hrun, hc⟩ := Except.eq_ok_of_any heval
  obtain ⟨server, list, data, hm, hs⟩ := of_contactsWith hc
  exact ⟨c, server, list, data, hrun, hm, of_decide_eq_true hs⟩

end Connection

end Telepathy

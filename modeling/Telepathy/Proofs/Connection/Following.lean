import Telepathy.ContactList.MemoryServer
import Telepathy.Proofs.Connection.Managers
import Telepathy.Proofs.ContactList.Learning

set_option autoImplicit false

/-!
# Contact lists follow their servers

A contact list lives through a series of calls: it is offered requests, told of statuses, and has
operations to carry out, while the data of its server change and the handle tables serve others as
well. From the arrival of the roster on, where somebody is on a list is decided by what the latest
call that concerned them found out.
-/

namespace Telepathy

/-- What a contact list is called for. -/
inductive ContactTask (σ : Type)
  | offer (r : ChannelRequest)
  | statusChanged (status : Status)
  | perform (op : ContactOperation (SortedSet Handle))
  /-- The data of the server change by themselves. -/
  | changeServer (f : σ → σ)

/-- A call to a contact list, with the handle tables as they are then. -/
structure ContactCall (σ : Type) where
  tables : HandleTables
  task : ContactTask σ

namespace ContactScene

variable {σ : Type} {server : ContactServer σ} {s s₁ : ContactScene σ}

/-! ## Calls -/

/-- A contact list that is called while the handle tables are these. -/
def amid (s : ContactScene σ) (tables : HandleTables) : ContactScene σ :=
  ⟨s.list, s.server, tables, []⟩

/-- What a call leaves behind. -/
def answer (server : ContactServer σ) (s : ContactScene σ) (call : ContactCall σ) :
    ContactScene σ :=
  let s := s.amid call.tables
  match call.task with
  | .offer r => (s.offer server r).2
  | .statusChanged status => if status = .disconnected then s.disconnect else s
  | .perform op => (s.perform server op).2
  | .changeServer f =>
    { s with
      server := f s.server
      tables := s.tables.exchangeContacts (server.holds (f s.server)) (server.holds s.server) }

/-- What a series of calls leaves behind. -/
def run (server : ContactServer σ) (s : ContactScene σ) (calls : List (ContactCall σ)) :
    ContactScene σ :=
  calls.foldl (answer server) s

/-- A contact list as it is built. -/
def built (server : ContactServer σ) (config : Config) (path : ObjectPath)
    (tables : HandleTables) (data : σ) : ContactScene σ :=
  (ContactScene.mk (ManagerPlan.emptyList config path server.capabilities) data
    (tables.exchangeContacts (server.holds data) []) []).openLists

theorem unfilled_built (config : Config) (path : ObjectPath) (tables : HandleTables) (data : σ) :
    (built server config path tables data).list.Unfilled := by
  refine unfilled_openLists fun _ t c hc => ?_
  cases hc

theorem unfilled_answer (call : ContactCall σ) (h : s.list.Unfilled) :
    (s.answer server call).list.Unfilled := by
  obtain ⟨tables, task⟩ := call
  cases task with
  | offer r => exact unfilled_offer (s := s.amid tables) r h
  | statusChanged status =>
    simp only [answer]
    split
    · exact unfilled_disconnect
    · exact h
  | perform op => exact unfilled_perform (s := s.amid tables) op h
  | changeServer f => exact h

theorem unfilled_run (calls : List (ContactCall σ)) (h : s.list.Unfilled) :
    (s.run server calls).list.Unfilled := by
  induction calls generalizing s with
  | nil => exact h
  | cons call calls ih => exact ih (unfilled_answer call h)

/-! ## What a call finds out -/

section Definitions

variable (server s)

/-- What a call finds out about `h`, if it concerns `h`. -/
def found? (h : Handle) (call : ContactCall σ) : Option Finding :=
  match call.task with
  | .perform op => (s.amid call.tables).finding? server op h
  | _ => none

/-- What a call finds out about whether `h` is blocked. -/
def foundBlocked? (h : Handle) (call : ContactCall σ) : Option Bool :=
  match call.task with
  | .perform op => (s.amid call.tables).blocking? server op h
  | _ => none

/-- The last thing that the calls of a run find out. -/
def latest? {α : Type} (found? : ContactScene σ → ContactCall σ → Option α) :
    ContactScene σ → List (ContactCall σ) → Option α
  | _, [] => none
  | s, call :: calls => (latest? found? (s.answer server call) calls).or (found? s call)

end Definitions

theorem learns_answer (hreceived : s.list.roster = .received) {call : ContactCall σ}
    (htask : call.task ≠ .statusChanged .disconnected) :
    s.Learns (s.answer server call) (s.found? server · call) (s.foundBlocked? server · call) := by
  obtain ⟨tables, task⟩ := call
  have hcalled : s.KeepsLists (s.amid tables) := .of_channels rfl
  cases task with
  | offer r =>
    have hoffer : Acts server groupsOnly (s.amid tables) ((s.amid tables).offer server r).2 :=
      acts_offer _ r
    exact (hcalled.trans hoffer.keepsLists).learns (fun _ => rfl) fun _ => rfl
  | statusChanged status =>
    have hstatus : status ≠ .disconnected := fun heq => htask (congrArg _ heq)
    simp only [answer, if_neg hstatus]
    exact hcalled.learns (fun _ => rfl) fun _ => rfl
  | perform op => exact .of_keepsLists hcalled (learns_perform server (s.amid tables) hreceived op)
  | changeServer f =>
    have hchanged : s.KeepsLists (s.answer server ⟨tables, .changeServer f⟩) := .of_channels rfl
    exact hchanged.learns (fun _ => rfl) fun _ => rfl

theorem received_answer (hreceived : s.list.roster = .received) {call : ContactCall σ}
    (htask : call.task ≠ .statusChanged .disconnected) :
    (s.answer server call).list.roster = .received := by
  obtain ⟨tables, task⟩ := call
  cases task with
  | offer r =>
    exact (congrArg Prod.snd (settings_offer server (s.amid tables) r)).trans hreceived
  | statusChanged status =>
    have hstatus : status ≠ .disconnected := fun heq => htask (congrArg _ heq)
    simp only [answer, if_neg hstatus]
    exact hreceived
  | perform op =>
    have harrived : (s.amid tables).list.roster ≠ .pending := by
      show s.list.roster ≠ .pending
      rw [hreceived]
      decide
    exact (congrArg Prod.snd (settings_perform_of_arrived server _ harrived op)).trans hreceived
  | changeServer f => exact hreceived

/-! ## Runs -/

/-- As long as the connection lasts, what a run finds out last decides who is where. -/
theorem learns_run (hreceived : s.list.roster = .received) {calls : List (ContactCall σ)}
    (hcalls : ∀ call ∈ calls, call.task ≠ .statusChanged .disconnected) :
    s.Learns (s.run server calls)
      (fun h => latest? server (fun s => s.found? server h) s calls)
      fun h => latest? server (fun s => s.foundBlocked? server h) s calls := by
  induction calls generalizing s with
  | nil => exact (KeepsLists.refl s).learns (fun _ => rfl) fun _ => rfl
  | cons call calls ih =>
    have hcall := hcalls call List.mem_cons_self
    exact (learns_answer hreceived hcall).trans
      (ih (received_answer hreceived hcall) fun call hin =>
        hcalls call (List.mem_cons_of_mem _ hin))

/-- The news that the roster has arrived. -/
def arrival (tables : HandleTables) : ContactCall σ := ⟨tables, .perform .received⟩

theorem received_arrival (hpending : s.list.roster = .pending) (tables : HandleTables) :
    (s.answer server (arrival tables)).list.roster = .received := by
  have hload : s.answer server (arrival tables) = (s.amid tables).loadRoster server :=
    if_pos hpending
  rw [hload]
  exact congrArg Prod.snd (settings_loadRoster server _)

/-- In every run, a list that is there when the roster arrives stays as long as the connection
lasts, and everybody is on it where the latest call that concerned them puts them, from the arrival
on. -/
theorem run_follows_server (server : ContactServer σ) (config : Config) (path : ObjectPath)
    (tables tables' : HandleTables) (data : σ) (early late : List (ContactCall σ))
    (hpending : ((built server config path tables data).run server early).list.roster = .pending)
    (hlate : ∀ call ∈ late, call.task ≠ .statusChanged .disconnected) :
    let s := (built server config path tables data).run server early
    let s' := s.run server (arrival tables' :: late)
    (∀ k, k ≠ .deny → (s.answer server (arrival tables')).list.HasChannel (.list k) →
      ∃ c, s'.list.list? k = some c ∧ ∀ h, c.membership.standings.get? h =
        (latest? server (fun s => s.found? server h) s (arrival tables' :: late)).bind
          (Finding.standing? k)) ∧
    ((s.answer server (arrival tables')).list.HasChannel (.list .deny) →
      ∃ c, s'.list.list? .deny = some c ∧ ∀ h, c.membership.standings.get? h =
        (latest? server (fun s => s.foundBlocked? server h) s (arrival tables' :: late)).bind
          Standing.ofBlocked?) := by
  intro s s'
  let s₁ := s.answer server (arrival tables')
  have hunfilled : s.list.Unfilled := unfilled_run early (unfilled_built config path tables data)
  have hlearns : s₁.Learns s' _ _ := learns_run (received_arrival hpending tables') hlate
  have hshown : ∀ {t c}, s'.list.channels.get? t = some c → ∀ h,
      c.membership.standings.get? h = s'.list.standing? t h := by
    intro t c hc h
    rw [ContactList.standing?, hc]
    rfl
  refine ⟨fun k hk hlist => ?_, fun hlist => ?_⟩
  · obtain ⟨c, hc⟩ := ContactList.hasChannel_iff.mp (hlearns.hasChannel k hlist)
    refine ⟨c, hc, fun h => ?_⟩
    have harrival : s₁.list.standing? (.list k) h =
        (s.found? server h (arrival tables')).bind (Finding.standing? k) :=
      standing?_arrival (s := s.amid tables') hpending hunfilled hk hlist h
    rw [hshown hc, hlearns.contacts k hk hlist, harrival, latest?, Option.bind_or]
  · obtain ⟨c, hc⟩ := ContactList.hasChannel_iff.mp (hlearns.hasChannel .deny hlist)
    refine ⟨c, hc, fun h => ?_⟩
    have harrival : s₁.list.standing? (.list .deny) h =
        (s.foundBlocked? server h (arrival tables')).bind Standing.ofBlocked? :=
      standing?_arrival_deny (s := s.amid tables') hpending hunfilled hlist h
    rw [hshown hc, hlearns.deny hlist, harrival, latest?, Option.bind_or]

/-- Three contacts, of whom the first asks for the user's presence when the roster arrives. -/
def asker : Handle := ⟨1, by decide⟩

def leaver : Handle := ⟨2, by decide⟩

def intruder : Handle := ⟨3, by decide⟩

/-- A server that can do everything. -/
def ableServer : ContactServer MemoryRoster :=
  MemoryRoster.server ⟨true, true, false, true, .editable .native⟩ [] false

def freeTables : HandleTables :=
  ⟨.onDemand .contact, none, some (.onDemand .list), some (.onDemand .group)⟩

/-- The server learns of two contacts. -/
def beforeArrival : List (ContactCall MemoryRoster) :=
  [⟨freeTables, .changeServer fun r =>
    (r.adjust (.ofList [asker]) fun _ => ⟨.yes, .ask, "hello"⟩).adjust (.ofList [leaver]) fun _ =>
      ⟨.yes, .yes, ""⟩⟩]

/-- Clients accept the first contact, remove the second and block the third; then the server has the
first contact in other states, but does not say so. -/
def afterArrival : List (ContactCall MemoryRoster) :=
  let list (n : String) : ObjectPath := ((ObjectPath.mk "/account").child "ContactList").child n
  [⟨freeTables, .perform (.addMembers (list "List2") (.ofList [asker]) "")⟩,
    ⟨freeTables, .perform (.removeMembers (list "List3") (.ofList [leaver]))⟩,
    ⟨freeTables, .perform (.addMembers (list "List4") (.ofList [intruder]) "")⟩,
    ⟨freeTables, .changeServer fun r => r.adjust (.ofList [asker]) fun _ => .unrelated⟩]

theorem afterArrival_followed :
    let s := ((built ableServer .standard ⟨"/account"⟩ freeTables .empty).run ableServer
      beforeArrival).run ableServer (arrival freeTables :: afterArrival)
    (∃ c, s.list.list? .publish = some c ∧ c.membership.standings.get? asker = some .member) ∧
      (∃ c, s.list.list? .stored = some c ∧ c.membership.standings.get? leaver = none) ∧
        ∃ c, s.list.list? .deny = some c ∧
          c.membership.standings.get? intruder = some .member := by
  have hthere : ∀ k, k ∈ ListKind.all → (((built ableServer .standard ⟨"/account"⟩ freeTables
      .empty).run ableServer beforeArrival).answer ableServer
        (arrival freeTables)).list.channels.contains (.list k) = true := by
    decide +kernel
  obtain ⟨hcontacts, hdeny⟩ := run_follows_server ableServer .standard ⟨"/account"⟩ freeTables
    freeTables .empty beforeArrival afterArrival (by decide +kernel) (by simp [afterArrival])
  refine ⟨?_, ?_, ?_⟩
  · obtain ⟨c, hc, hwhere⟩ := hcontacts .publish (by decide) (hthere _ (by decide))
    exact ⟨c, hc, (hwhere asker).trans (by decide +kernel)⟩
  · obtain ⟨c, hc, hwhere⟩ := hcontacts .stored (by decide) (hthere _ (by decide))
    exact ⟨c, hc, (hwhere leaver).trans (by decide +kernel)⟩
  · obtain ⟨c, hc, hwhere⟩ := hdeny (hthere _ (by decide))
    exact ⟨c, hc, (hwhere intruder).trans (by decide +kernel)⟩

end ContactScene

/-! ## The contact lists of a connection -/

variable {σ ρ : Type}

/-- A contact list and server data that some calls lead to, from the time the list was built. -/
def Manager.Called : Manager σ ρ → Prop
  | .custom _ _ => True
  | .contacts server list data => ∃ config path tables initial calls,
      let s := (ContactScene.built server config path tables initial).run server calls
      s.list = list ∧ s.server = data

/-- One more call makes the series longer. -/
theorem Manager.Called.answer {server : ContactServer ρ} {list : ContactList} {data : ρ}
    (h : (contacts server list data : Manager σ ρ).Called) (tables : HandleTables)
    (task : ContactTask ρ) :
    (close server ((ContactScene.mk list data tables []).answer server ⟨tables, task⟩) :
      Turn σ ρ).manager.Called := by
  obtain ⟨config, path, tables₀, initial, calls, rfl, rfl⟩ := h
  refine ⟨config, path, tables₀, initial, calls ++ [⟨tables, task⟩], ?_⟩
  rw [ContactScene.run, List.foldl_append]
  exact ⟨rfl, rfl⟩

theorem Manager.called_lasting : Manager.Lasting (Manager.Called (σ := σ) (ρ := ρ)) where
  offer m tables r h := by
    cases m with
    | custom b state => trivial
    | contacts server list data => exact h.answer tables (.offer r)
  statusChanged m tables status h := by
    cases m with
    | custom b state => trivial
    | contacts server list data => exact h.answer tables (.statusChanged status)
  performContacts {m tables op out} hperform h := by
    cases m with
    | custom b state => cases hperform
    | contacts server list data =>
      cases hperform
      exact h.answer tables (.perform op)
  changeServer {m tables f t} hchange h := by
    cases m with
    | custom b state => cases hchange
    | contacts server list data =>
      cases hchange
      exact h.answer tables (.changeServer f)
  changeState {m tables f t} hchange h := by
    cases m with
    | custom b state =>
      cases hchange
      trivial
    | contacts server list data => cases hchange

/-- Whatever a connection does with a contact list comes down to such calls. -/
theorem Connection.run_callsContactLists (backend : Backend) (config : Config)
    (tables : HandleTables) (plans : List (ManagerPlan σ ρ)) {ops : List (Operation σ ρ)}
    {c : Connection σ ρ} (hrun : (new backend config tables plans).run ops = .ok c) :
    AllManagers Manager.Called c := by
  refine run_keepsManagers Manager.called_lasting (fun plan _ path tables' => ?_) hrun
  cases plan with
  | custom b state => trivial
  | contacts server data => exact ⟨config, path, tables', data, [], rfl, rfl⟩

end Telepathy

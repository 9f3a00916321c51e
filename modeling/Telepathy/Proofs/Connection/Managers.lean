import Telepathy.Proofs.Connection.Stages

set_option autoImplicit false

/-!
# What managers keep throughout a run

A manager changes only when it is called. So a property that no call to a manager ends, and that
every manager has when it is built, holds of the managers of every connection that a run leads to.
Of the stages of an operation only one calls a manager, so that is the only one to look at.
-/

namespace Telepathy

variable {σ ρ : Type}

/-- No call to a manager ends the property. -/
structure Manager.Lasting (P : Manager σ ρ → Prop) : Prop where
  offer : ∀ m tables r, P m → P (m.offer tables r).2.manager
  statusChanged : ∀ m tables status, P m → P (m.statusChanged tables status).manager
  performContacts : ∀ {m : Manager σ ρ} {tables op out},
    m.performContacts? tables op = some out → P m → P out.2.manager
  changeServer : ∀ {m : Manager σ ρ} {tables f t}, m.changeServer? tables f = some t → P m →
    P t.manager
  changeState : ∀ {m : Manager σ ρ} {tables f t}, m.changeState? tables f = some t → P m →
    P t.manager

theorem Manager.Lasting.ends {P : Manager σ ρ → Prop} (hP : Manager.Lasting P)
    {start : Connection σ ρ} {op : Operation σ ρ} {seat : Nat} {status : Status}
    {tables : HandleTables} {m : Manager σ ρ} {t : Turn σ ρ} (hm : P m)
    (ht : m.Ends start op seat status tables t) : P t.manager := by
  cases ht with
  | offer htarget => exact hP.offer m tables _ hm
  | statusChanged => exact hP.statusChanged m tables status hm
  | performContacts _ _ _ hperform => exact hP.performContacts hperform hm
  | changeServer _ _ _ _ hchange => exact hP.changeServer hchange hm
  | changeState _ _ _ hchange => exact hP.changeState hchange hm

/-- A property of contact lists as one of managers. -/
def Manager.OfLists (P : ContactServer ρ → ContactList → Prop) : Manager σ ρ → Prop
  | .custom _ _ => True
  | .contacts server list _ => P server list

/-- For a property of contact lists there are only requests, operations and the end of the
connection to look at. -/
theorem Manager.lasting_ofLists {P : ContactServer ρ → ContactList → Prop}
    (hoffer : ∀ (server : ContactServer ρ) (s : ContactScene ρ) r, P server s.list →
      P server (s.offer server r).2.list)
    (hperform : ∀ (server : ContactServer ρ) (s : ContactScene ρ) op, P server s.list →
      P server (s.perform server op).2.list)
    (hdisconnect : ∀ (server : ContactServer ρ) (s : ContactScene ρ), P server s.list →
      P server s.disconnect.list) :
    Manager.Lasting (σ := σ) (ρ := ρ) (Manager.OfLists P) where
  offer m tables r h := by
    cases m with
    | custom b state => trivial
    | contacts server list data => exact hoffer server ⟨list, data, tables, []⟩ r h
  statusChanged m tables status h := by
    cases m with
    | custom b state => trivial
    | contacts server list data =>
      by_cases hgone : status = .disconnected
      · simp only [statusChanged, if_pos hgone]
        exact hdisconnect server ⟨list, data, tables, []⟩ h
      · simp only [statusChanged, if_neg hgone]
        exact h
  performContacts {m tables op out} hout h := by
    cases m with
    | custom b state => cases hout
    | contacts server list data =>
      cases hout
      exact hperform server ⟨list, data, tables, []⟩ op h
  changeServer {m tables f t} hchange h := by
    cases m with
    | custom b state => cases hchange
    | contacts server list data =>
      cases hchange
      exact h
  changeState {m tables f t} hchange h := by
    cases m with
    | custom b state =>
      cases hchange
      trivial
    | contacts server list data => cases hchange

namespace Connection

variable {start c c₁ : Connection σ ρ} {op : Operation σ ρ} {P : Manager σ ρ → Prop}

/-- All managers have the property. -/
def AllManagers (P : Manager σ ρ → Prop) (c : Connection σ ρ) : Prop :=
  ∀ (seat : Nat) m, c.managers[seat]? = some m → P m

/-- A computation after which, if it comes to its end, `P` holds. -/
def Leaves {α : Type} (P : α → Prop) (x : Except Crash α) : Prop := x.Ends (fun _ => True) P

namespace AllManagers

/-- Where one manager is replaced by another that has the property, all have it still. -/
theorem replace (h : AllManagers P c) {seat : Nat} {m : Manager σ ρ} (hm : P m)
    (hc : c₁.managers = c.managers.set seat m) : AllManagers P c₁ := by
  intro seat' m' hm'
  rw [hc, List.getElem?_set] at hm'
  split at hm'
  · split at hm' <;> cases hm'
    exact hm
  · exact h seat' m' hm'

/-- A manager that is called has the property afterwards, and the others still have it. -/
theorem takeTurn (h : AllManagers P c) (seat : Nat) {t : Turn σ ρ} (ht : P t.manager) :
    Leaves (AllManagers P) (c.takeTurn seat t) := by
  cases hturn : c.takeTurn seat t with
  | error crash => trivial
  | ok c₁ => exact h.replace ht (takeTurn_eq_ok hturn).2.1

variable (hP : Manager.Lasting P)
include hP

theorem offerAt (h : AllManagers P c) (r : ChannelRequest) (seat : Nat) :
    Leaves (fun out => AllManagers P out.2) (c.offerAt r seat) := by
  unfold Connection.offerAt
  split
  · exact h
  case h_2 m hm =>
    have hrecorded : AllManagers P (c.record [.offered seat r]) := h
    exact (hrecorded.takeTurn seat (hP.offer m c.tables r (h seat m hm))).map fun c hc => hc

theorem notifyAt (h : AllManagers P c) (status : Status) (seat : Nat) :
    Leaves (AllManagers P) (c.notifyAt status seat) := by
  unfold Connection.notifyAt
  split
  · exact h
  case h_2 m hm =>
    have hrecorded : AllManagers P (c.record [.notified seat status]) := h
    exact hrecorded.takeTurn seat (hP.statusChanged m c.tables status (h seat m hm))

/-- No stage of an operation ends the property. -/
theorem stage (h : AllManagers P c) (hstage : Stage start op c c₁) : AllManagers P c₁ := by
  rcases hstage.managers with heq | ⟨seat, m, t, hm, ht, heq⟩
  · intro seat m hm
    exact h seat m (heq ▸ hm)
  · exact h.replace (hP.ends (h seat m hm) ht) heq

theorem stages (h : AllManagers P c) (hstages : Stages start op c c₁) : AllManagers P c₁ :=
  hstages.rel (R := fun c c' => AllManagers P c → AllManagers P c') (fun _ => id)
    (fun h h' hc => h' (h hc)) (fun hstage hc => hc.stage hP hstage) h

theorem enter (h : AllManagers P c) {status : Status} {reason : StatusReason}
    (hroute : c.status.route status = .ok .direct)
    (hself : status = .connected → c.self.isSome = true)
    (henter : c.enter status reason = .ok c₁) : AllManagers P c₁ := by
  -- Whatever operation led to it.
  have hstages : Stages c (.changeStatus status reason) c c₁ := stages_enter hroute hself henter
  exact h.stages hP hstages

/-- No operation ends the property. -/
theorem step (h : AllManagers P c) {out : StepOutcome σ ρ} (hstep : c.step op = .ok out) :
    AllManagers P out.2 :=
  h.stages hP (stages_step hstep)

theorem run (h : AllManagers P c) {ops : List (Operation σ ρ)} (hrun : c.run ops = .ok c₁) :
    AllManagers P c₁ :=
  keeps_run (fun hstage h => h.stage hP hstage) h hrun

end AllManagers

/-! ## New connections -/

theorem build_of_buildAll {config : Config} {path : ObjectPath} {tables : HandleTables}
    {plans : List (ManagerPlan σ ρ)} {seat : Nat} {m : Manager σ ρ}
    (h : (ManagerPlan.buildAll config path tables plans).1[seat]? = some m) :
    ∃ plan tables', plans[seat]? = some plan ∧ m = (plan.build config path tables').1 := by
  induction plans generalizing tables seat with
  | nil => cases h
  | cons plan plans ih =>
    cases seat with
    | zero => exact ⟨plan, tables, rfl, (Option.some.inj h).symm⟩
    | succ seat => exact ih h

/-- The managers of a new connection have a property if they were built with it. -/
theorem AllManagers.of_plans {backend : Backend} {config : Config} {tables : HandleTables}
    {plans : List (ManagerPlan σ ρ)}
    (hplans : ∀ plan ∈ plans, ∀ path tables, P (plan.build config path tables).1) :
    AllManagers P (new backend config tables plans) := by
  intro seat m hm
  obtain ⟨plan, tables', hplan, rfl⟩ := build_of_buildAll hm
  exact hplans plan (List.mem_of_getElem? hplan) _ tables'

/-- What holds of every contact list holds of all managers of a new connection if it does of the
application's own, whatever their states. -/
theorem AllManagers.of_behaviours {backend : Backend} {config : Config} {tables : HandleTables}
    {plans : List (ManagerPlan σ ρ)}
    (hcustom : ∀ b state, .custom b state ∈ plans → ∀ s, P (.custom b s))
    (hcontacts : ∀ server list data, P (.contacts server list data)) :
    AllManagers P (new backend config tables plans) := by
  refine .of_plans fun plan hplan path tables' => ?_
  cases plan with
  | custom b state => exact hcustom b state hplan _
  | contacts server data => exact hcontacts server _ _

/-- In every run, the managers have a property that no call ends if they were built with it. -/
theorem run_keepsManagers (hP : Manager.Lasting P) {backend : Backend} {config : Config}
    {tables : HandleTables} {plans : List (ManagerPlan σ ρ)}
    (hplans : ∀ plan ∈ plans, ∀ path tables, P (plan.build config path tables).1)
    {ops : List (Operation σ ρ)} (hrun : (new backend config tables plans).run ops = .ok c) :
    AllManagers P c :=
  (AllManagers.of_plans hplans).run hP hrun

/-- In every run, contact lists have a property that no call ends if they have it when they are
built: the roster is on its way, and the lists are opened where no channel was before. -/
theorem run_keepsLists {P : ContactServer ρ → ContactList → Prop}
    (hP : Manager.Lasting (σ := σ) (Manager.OfLists P))
    (hbuilt : ∀ (server : ContactServer ρ) (s : ContactScene ρ), s.list.roster = .pending →
      s.list.channels = .empty → P server s.openLists.list)
    {backend : Backend} {config : Config} {tables : HandleTables} {plans : List (ManagerPlan σ ρ)}
    {ops : List (Operation σ ρ)} (hrun : (new backend config tables plans).run ops = .ok c) :
    AllManagers (Manager.OfLists P) c := by
  refine run_keepsManagers hP (fun plan _ path tables' => ?_) hrun
  cases plan with
  | custom b state => trivial
  | contacts server data => exact hbuilt server _ rfl rfl

/-- In every run, the servers of the contact lists are those that were planned. -/
theorem run_keepsServers {P : ContactServer ρ → Prop} {backend : Backend} {config : Config}
    {tables : HandleTables} {plans : List (ManagerPlan σ ρ)}
    (hplans : ∀ server data, .contacts server data ∈ plans → P server)
    {ops : List (Operation σ ρ)} (hrun : (new backend config tables plans).run ops = .ok c) :
    AllManagers (Manager.OfLists fun server _ => P server) c := by
  refine run_keepsManagers (Manager.lasting_ofLists (fun _ _ _ => id) (fun _ _ _ => id)
    fun _ _ => id) (fun plan hplan path tables' => ?_) hrun
  cases plan with
  | custom b state => trivial
  | contacts server data => exact hplans server data hplan

end Connection

end Telepathy

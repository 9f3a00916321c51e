import Telepathy.Proofs.Connection.Managers
import Telepathy.Proofs.ContactList.Books

set_option autoImplicit false

/-!
# Who holds the references of a connection

A connection holds references for the requests in flight, for the local user and for its managers,
and it keeps some for others under names. Its books are balanced if the handle tables count just
these references, and those that others hold all the time. They stay balanced as long as managers
take references only on handles that they hold already or are asked for, and servers only on
contacts that they are called about. So whatever a connection holds is in use, however often unused
handles are reclaimed.
-/

namespace Telepathy

variable {σ ρ : Type}

/-! ## Managers -/

/-- A manager of the application's own that takes no references on other handles than those it holds
already and the targets of requests. -/
structure Behaviour.Careful (b : Behaviour σ) : Prop where
  answer : ∀ state r, ∀ x ∈ b.holds (b.answer state r).state,
    x ∈ b.holds state ∨ r.target.map (Reference.mk r.entity) = some x
  statusChanged : ∀ state status, ∀ x ∈ b.holds (b.statusChanged state status).1, x ∈ b.holds state

namespace Manager

/-- A manager that is careful with references. -/
def Careful : Manager σ ρ → Prop
  | custom b _ => b.Careful
  | contacts server _ _ => server.Careful

/-- The references that a manager holds. -/
def references : Manager σ ρ → List Reference
  | custom b state => b.holds state
  | contacts server list data =>
    (server.holds data).map (Reference.mk .contact) ++ list.references

theorem careful_lasting : Manager.Lasting (σ := σ) (ρ := ρ) Manager.Careful where
  offer m tables r h := by cases m <;> exact h
  statusChanged m tables status h := by cases m <;> exact h
  performContacts {m tables op out} hop h := by
    cases m <;> cases hop
    exact h
  changeServer {m tables f t} ht h := by
    cases m <;> cases ht
    exact h
  changeState {m tables f t} ht h := by
    cases m <;> cases ht
    exact h

variable {start : Connection σ ρ} {op : Operation σ ρ} {seat : Nat} {status : Status}
  {tables : HandleTables} {m : Manager σ ρ} {t : Turn σ ρ} {others : List Reference}

theorem counts_finish {b : Behaviour σ} {old new : σ} (h : tables.Counts (b.holds old ++ others))
    (hnew : ∀ x ∈ b.holds new, x ∈ b.holds old ∨ tables.isValid x = true)
    (effects : List Effect) :
    (finish tables b old new effects : Turn σ ρ).tables.Counts (b.holds new ++ others) := by
  refine h.exchange (fun x hx => ?_) (List.perm_iff_count.mpr fun x => ?_)
  · rcases hnew x hx with hold | hvalid
    · exact h.isValid (List.mem_append_left _ hold)
    · exact hvalid
  · simp only [List.count_append]
    omega

/-- However a call to a manager ends, what it took and what it gave back is counted. -/
theorem Ends.counts (hm : m.Careful) (hapt : op.Apt start)
    (ht : m.Ends start op seat status tables t) (h : tables.Counts (m.references ++ others)) :
    t.tables.Counts (t.manager.references ++ others) := by
  cases m with
  | custom b state =>
    cases ht with
    | @offer r htarget =>
      refine counts_finish h (fun x hx => ?_) _
      refine (hm.answer state r x hx).imp_right fun hx => ?_
      obtain ⟨y, hy, rfl⟩ := Option.map_eq_some_iff.mp hx
      exact htarget hapt y hy
    | statusChanged => exact counts_finish h (fun x hx => .inl (hm.statusChanged _ _ x hx)) _
    | performContacts _ _ _ hperform => cases hperform
    | changeServer _ _ _ _ hchange => cases hchange
    | changeState hop hstart htables hchange =>
      cases hchange
      subst hop
      subst htables
      exact counts_finish h (fun x hx => .inr (hapt.careful b state hstart x hx)) _
  | contacts server list data =>
    have hbooks : (ContactScene.mk list data tables []).Books server tables others := ⟨h, .refl _⟩
    cases ht with
    | offer htarget => exact (ContactScene.books_offer hm _ hbooks).counts
    | statusChanged =>
      simp only [Manager.statusChanged]
      split
      · exact hbooks.disconnect.counts
      · exact h
    | performContacts _ _ hnamed hperform =>
      cases hperform
      exact (ContactScene.books_perform hm (hnamed hapt) hbooks).counts
    | changeServer hop hstart hfound htables hchange =>
      cases hchange
      subst hop
      subst htables
      refine h.exchangeContacts (hapt.careful _ _ _ _ hstart hfound)
        (List.perm_iff_count.mpr fun x => ?_)
      simp only [references, List.count_append]
      omega
    | changeState _ _ _ hchange => cases hchange

end Manager

/-! ## Connections -/

namespace Connection

/-- The references that a connection holds for the local user and for its managers. -/
def own (c : Connection σ ρ) : List Reference :=
  c.self.toList.map (Reference.mk .contact) ++ c.managers.flatMap Manager.references

/-- The handle tables count what the connection holds and keeps, and what `others` are. -/
structure Balanced (others : List Reference) (c : Connection σ ρ) : Prop where
  counts : c.tables.Counts (c.kept.values ++ c.ledger.holds ++ (c.own ++ others))
  issued : c.ledger.Issued

variable {start c c₁ : Connection σ ρ} {op : Operation σ ρ} {others : List Reference}

/-- The effects of managers move only references that are held for requests. -/
theorem exchanges_performAll {seat : Nat} {effects : List Effect}
    (h : effects.foldlM (perform seat) c = .ok c₁) : c.Exchanges c₁ := by
  refine List.foldlM_rel Exchanges.refl Exchanges.trans (fun {c e c₁} h => ?_) h
  cases e with
  | report r => exact exchanges_settle (Except.mapError_eq_ok.mp h)
  | signal path s =>
    cases h
    exact ⟨id, fun _ _ h => h⟩
  | called call =>
    cases h
    exact ⟨id, fun _ _ h => h⟩

namespace Balanced

/-- The local user's handle is in use. -/
theorem isValid_self (h : Balanced others c) {x : Handle} (hx : c.self = some x) :
    c.tables.isValid ⟨.contact, x⟩ = true := by
  refine h.counts.isValid (List.mem_append_right _ (List.mem_append_left _ ?_))
  exact List.mem_append_left _ (List.mem_map_of_mem (Option.mem_toList.mpr hx))

theorem exchanges (h : Balanced others c) (hx : c.Exchanges c₁) (hself : c₁.self = c.self)
    (hmanagers : c₁.managers = c.managers) : Balanced others c₁ := by
  refine ⟨?_, hx.issued h.issued⟩
  have hcounts := hx.counts h.issued _ h.counts
  rwa [own, ← hself, ← hmanagers] at hcounts

theorem onBus (h : Balanced others c) (hbus : c.OnBus c₁) : Balanced others c₁ := by
  rw [hbus.frame]
  exact ⟨h.counts, h.issued⟩

theorem turn {seat : Nat} {m : Manager σ ρ} {t : Turn σ ρ} (hm : c.managers[seat]? = some m)
    (hcareful : m.Careful) (hapt : op.Apt start)
    (hends : m.Ends start op seat c.status c.tables t) (h : Balanced others c)
    (hturn : c.takeTurn seat t = .ok c₁) : Balanced others c₁ := by
  have hseat : seat < c.managers.length := (List.getElem?_eq_some_iff.mp hm).1
  have hnew : (c.managers.set seat t.manager)[seat]? = some t.manager :=
    List.getElem?_set_self hseat
  -- What others than the manager hold is out of its reach.
  have hreach : c.tables.Counts (m.references ++ (c.kept.values ++ c.ledger.holds ++
      (c.self.toList.map (Reference.mk .contact) ++
        (c.managers.eraseIdx seat).flatMap Manager.references ++ others))) := by
    refine h.counts.of_perm (List.perm_iff_count.mpr fun x => ?_)
    have hold := (List.flatMap_perm_of_getElem? hm Manager.references).count_eq x
    simp only [own, List.count_append] at hold ⊢
    omega
  have hcounts := hends.counts hcareful hapt hreach
  have hplaced : Balanced others
      { c with managers := c.managers.set seat t.manager, tables := t.tables } := by
    refine ⟨hcounts.of_perm (List.perm_iff_count.mpr fun x => ?_), h.issued⟩
    have hset := (List.flatMap_perm_of_getElem? hnew Manager.references).count_eq x
    rw [List.eraseIdx_set_eq] at hset
    simp only [own, List.count_append] at hset ⊢
    omega
  have hserved := List.foldlM_rel Served.refl Served.trans served_perform hturn
  refine hplaced.exchanges (exchanges_performAll hturn) ?_ (takeTurn_eq_ok hturn).2.1
  rw [hserved.frame]

/-- No stage of an apt operation loses a reference or counts one too many. -/
theorem stage (hcareful : AllManagers Manager.Careful c) (hapt : op.Apt start)
    (hstage : Stage start op c c₁) (h : Balanced others c) : Balanced others c₁ := by
  cases hstage with
  | turn hm hends hturn => exact h.turn hm (hcareful _ _ hm) hapt hends hturn
  | settle hop hsettle =>
    have hserved := served_settle hsettle
    refine h.exchanges (exchanges_settle hsettle) ?_ (settle_eq_ok hsettle).2.1
    rw [hserved.frame]
  | register hop => exact h.onBus (onBus_register c)
  | loseName hop => exact h.onBus (onBus_loseName c)
  | losePath hop => exact h.onBus (onBus_losePath c)
  | leave hstatus hover => exact h.onBus (onBus_leave c)
  | account hevolves hexchanges => exact h.exchanges (hexchanges hapt) rfl rfl
  | @setSelf name x hop hstatus hvalid =>
    refine ⟨h.counts.exchangeContacts (fun y hy => ?_) (List.perm_iff_count.mpr fun y => ?_),
      h.issued⟩
    · rw [List.mem_singleton.mp hy]
      exact hvalid hapt
    · simp only [record, own, Option.toList_some, List.map_cons, List.map_nil, List.count_append,
        List.count_cons, List.count_nil]
      omega
  | forgetSelf hstatus =>
    refine ⟨h.counts.exchangeContacts (by simp) (List.perm_iff_count.mpr fun y => ?_), h.issued⟩
    simp only [own, forgetSelf, Option.toList_none, List.map_nil, List.count_append,
      List.count_nil]
    omega
  | say hplain => exact ⟨h.counts, h.issued⟩
  | status hroute hself => exact ⟨h.counts, h.issued⟩
  | interests interests watched => exact ⟨h.counts, h.issued⟩
  | calls disconnectCalls => exact ⟨h.counts, h.issued⟩

end Balanced

/-! ## Operations and runs -/

/-- A connection with careful managers whose books are balanced. -/
structure KeepsBooks (others : List Reference) (c : Connection σ ρ) : Prop where
  careful : AllManagers Manager.Careful c
  balanced : Balanced others c

/-- A run of operations by which nobody takes a reference on a handle that is not in use. -/
def CarefulRun : Connection σ ρ → List (Operation σ ρ) → Prop :=
  Throughout fun c op => op.Careful c

namespace KeepsBooks

theorem stage (h : KeepsBooks others c) (hapt : op.Apt start) (hstage : Stage start op c c₁) :
    KeepsBooks others c₁ :=
  ⟨h.careful.stage Manager.careful_lasting hstage, h.balanced.stage h.careful hapt hstage⟩

theorem apt (h : KeepsBooks others c) (hop : op.Careful c) : op.Apt c :=
  ⟨h.balanced.counts.sound, hop⟩

/-- Nothing that happens brings the books out of balance. -/
theorem step (h : KeepsBooks others c) (hop : op.Careful c) {out : StepOutcome σ ρ}
    (hstep : c.step op = .ok out) : KeepsBooks others out.2 :=
  (stages_step hstep).rel (R := fun c c₁ : Connection σ ρ => KeepsBooks others c →
    KeepsBooks others c₁) (fun _ => id) (fun h h' hc => h' (h hc))
    (fun hstage hc => hc.stage (h.apt hop) hstage) h

theorem run (h : KeepsBooks others c) {ops : List (Operation σ ρ)} (hops : CarefulRun c ops)
    (hrun : c.run ops = .ok c₁) : KeepsBooks others c₁ :=
  hops.keeps (I := KeepsBooks others) (fun h hop hstep => h.step hop hstep) h hrun

end KeepsBooks

end Connection

/-! ## New connections -/

namespace ManagerPlan

/-- A plan for a careful manager of a connection at `path`, which holds from the beginning only what
is in use. -/
def Careful (path : ObjectPath) (tables : HandleTables) : ManagerPlan σ ρ → Prop
  | custom b state => b.Careful ∧ ∀ r ∈ b.holds (state path), tables.isValid r = true
  | contacts server data =>
    server.Careful ∧ ∀ h ∈ server.holds data, tables.isValid ⟨.contact, h⟩ = true

variable {config : Config} {path : ObjectPath} {tables tables' : HandleTables}
  {plan : ManagerPlan σ ρ} {plans : List (ManagerPlan σ ρ)} {others : List Reference}

theorem Careful.keeps (h : plan.Careful path tables) (hkeeps : tables.Keeps tables') :
    plan.Careful path tables' := by
  cases plan with
  | custom b state => exact ⟨h.1, fun r hr => hkeeps _ (h.2 r hr)⟩
  | contacts server data => exact ⟨h.1, fun x hx => hkeeps _ (h.2 x hx)⟩

theorem Careful.manager (h : plan.Careful path tables) (config : Config) (tables' : HandleTables) :
    (plan.build config path tables').1.Careful := by
  cases plan <;> exact h.1

/-- When a manager is built, what it holds is counted. -/
theorem Careful.build (h : plan.Careful path tables) (config : Config)
    (hcounts : tables.Counts others) :
    (plan.build config path tables).2.Counts
        ((plan.build config path tables).1.references ++ others) ∧
      tables.Keeps (plan.build config path tables).2 := by
  cases plan with
  | custom b state => exact ⟨hcounts.retainAll h.2, tables.keeps_retainAll _⟩
  | contacts server data =>
    have hnone : (emptyList config path server.capabilities).references = [] := rfl
    have hempty : (ContactScene.mk (emptyList config path server.capabilities) data
        (tables.exchangeContacts (server.holds data) []) []).Books server tables others :=
      ⟨hcounts.exchangeContacts h.2 (.of_eq (by simp [hnone])), tables.keeps_exchangeContacts _ _⟩
    exact ⟨hempty.openLists.counts, hempty.openLists.keeps⟩

theorem counts_buildAll (hplans : ∀ plan ∈ plans, plan.Careful path tables)
    (hcounts : tables.Counts others) :
    (buildAll config path tables plans).2.Counts
      ((buildAll config path tables plans).1.flatMap Manager.references ++ others) := by
  induction plans generalizing tables others with
  | nil => exact hcounts
  | cons plan plans ih =>
    obtain ⟨hbuilt, hkeeps⟩ := (hplans plan List.mem_cons_self).build config hcounts
    have hrest := ih (fun p hp => (hplans p (.tail _ hp)).keeps hkeeps) hbuilt
    refine hrest.of_perm (List.perm_iff_count.mpr fun x => ?_)
    simp only [buildAll, List.flatMap_cons, List.count_append]
    omega

end ManagerPlan

namespace Connection

/-- The books of a new connection are balanced if those of its tables were. -/
theorem keepsBooks_new (backend : Backend) (config : Config) {tables : HandleTables}
    {plans : List (ManagerPlan σ ρ)} {others : List Reference} (hcounts : tables.Counts others)
    (hplans : ∀ plan ∈ plans, plan.Careful (new backend config tables plans).names.path tables) :
    KeepsBooks others (new backend config tables plans) where
  careful seat m hm := by
    obtain ⟨plan, tables', hplan, rfl⟩ := build_of_buildAll hm
    exact (hplans plan (List.mem_of_getElem? hplan)).manager config tables'
  balanced := ⟨ManagerPlan.counts_buildAll hplans hcounts, RequestLedger.issued_empty⟩

end Connection

end Telepathy

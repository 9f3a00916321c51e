import Telepathy.Proofs.Connection.Managers

set_option autoImplicit false

/-!
# The handle tables over a run

Whatever a connection does, its handle tables stay sound and handles keep their meaning. Only two
things take a handle out of use: the operation that asks for a collection, and the end of the
connection, which collects as well. So until then a handle that was given to a client stays good.
-/

namespace Telepathy

variable {σ ρ : Type}

namespace Connection

variable {start c c₁ c₂ : Connection σ ρ} {op : Operation σ ρ} {collects collects' : Prop}

/-! ## Stages -/

/-- A stage takes no handle out of use but by reclaiming it. -/
theorem Stage.evolves (h : Stage start op c c₁) : c.tables.Evolves c₁.tables := by
  have hbus : ∀ {c₁ : Connection σ ρ}, c.OnBus c₁ → c.tables.Evolves c₁.tables := by
    intro c₁ h
    rw [h.frame]
    exact .refl _
  cases h with
  | turn hm ht hturn => exact (ht.sustains.trans (sustains_takeTurn hturn)).evolves
  | settle hop hsettle => exact (sustains_settle hsettle).evolves
  | register hop => exact hbus (onBus_register c)
  | loseName hop => exact hbus (onBus_loseName c)
  | losePath hop => exact hbus (onBus_losePath c)
  | leave hstatus hover => exact hbus (onBus_leave c)
  | account hevolves hexchanges => exact hevolves
  | setSelf hop hstatus hvalid => exact c.tables.evolves_exchangeContacts _ _
  | forgetSelf hstatus => exact c.tables.evolves_exchangeContacts _ _
  | _ => exact .refl _

/-- A stage reclaims handles only if it is to collect them, or at the end of the connection. -/
theorem Stage.keeps (h : Stage start op c c₁) :
    c.tables.Keeps c₁.tables ∨ op = .collect ∨ c.status = .disconnected := by
  have hbus : ∀ {c₁ : Connection σ ρ}, c.OnBus c₁ → c.tables.Keeps c₁.tables := by
    intro c₁ h
    rw [h.frame]
    exact .refl _
  cases h with
  | turn hm ht hturn => exact .inl (ht.sustains.trans (sustains_takeTurn hturn)).keeps
  | settle hop hsettle => exact .inl (sustains_settle hsettle).keeps
  | register hop => exact .inl (hbus (onBus_register c))
  | loseName hop => exact .inl (hbus (onBus_loseName c))
  | losePath hop => exact .inl (hbus (onBus_losePath c))
  | leave hstatus hover => exact .inl (hbus (onBus_leave c))
  | account hevolves hexchanges hkeeps => exact hkeeps
  | setSelf hop hstatus hvalid => exact .inl (c.tables.keeps_exchangeContacts _ _)
  | forgetSelf hstatus => exact .inl (c.tables.keeps_exchangeContacts _ _)
  | _ => exact .inl (.refl _)

/-- A connection that is disconnected stays so. -/
theorem Stage.gone (h : Stage start op c c₁) (hgone : c.status = .disconnected) :
    c₁.status = .disconnected := by
  have hbus : ∀ {c₁ : Connection σ ρ}, c.OnBus c₁ → c₁.status = .disconnected := by
    intro c₁ h
    rw [h.frame]
    exact hgone
  cases h with
  | turn hm ht hturn => exact (served_takeTurn hturn).status.trans hgone
  | settle hop hsettle => exact (served_settle hsettle).status.trans hgone
  | register hop => exact hbus (onBus_register c)
  | loseName hop => exact hbus (onBus_loseName c)
  | losePath hop => exact hbus (onBus_losePath c)
  | leave hstatus hover => exact hbus (onBus_leave c)
  | status hroute hself =>
    rw [hgone] at hroute
    exact absurd rfl (Status.ne_disconnected_of_route hroute)
  | _ => exact hgone

/-! ## Operations and runs -/

/-- What becomes of the handle tables of a connection, where it may be asked for a collection. -/
structure Upkeep (collects : Prop) (c c₁ : Connection σ ρ) : Prop where
  evolves : c.tables.Evolves c₁.tables
  gone : c.status = .disconnected → c₁.status = .disconnected
  keeps : c.tables.Keeps c₁.tables ∨ collects ∨ c₁.status = .disconnected

namespace Upkeep

theorem refl (c : Connection σ ρ) : Upkeep collects c c := ⟨.refl _, id, .inl (.refl _)⟩

theorem trans (h : Upkeep collects c c₁) (h' : Upkeep collects c₁ c₂) : Upkeep collects c c₂ where
  evolves := h.evolves.trans h'.evolves
  gone hgone := h'.gone (h.gone hgone)
  keeps := by
    rcases h.keeps with hkeeps | hcollects | hgone
    · exact h'.keeps.imp_left hkeeps.trans
    · exact .inr (.inl hcollects)
    · exact .inr (.inr (h'.gone hgone))

theorem mono (h : Upkeep collects c c₁) (hcollects : collects → collects') :
    Upkeep collects' c c₁ :=
  ⟨h.evolves, h.gone, h.keeps.imp_right fun h => h.imp_left hcollects⟩

/-- A handle in use at the end of a time in which it was not reclaimed has the name it had. -/
theorem inspect (h : Upkeep collects c c₁) (hsound : c.tables.Sound) (hcollects : ¬ collects)
    (hstatus : c₁.status ≠ .disconnected) {r : Reference} (hvalid : c.tables.isValid r = true) :
    c₁.tables.isValid r = true ∧ c₁.tables.inspect r = c.tables.inspect r := by
  have hkeeps : c.tables.Keeps c₁.tables := by
    rcases h.keeps with hkeeps | hcollects' | hgone
    · exact hkeeps
    · exact absurd hcollects' hcollects
    · exact absurd hgone hstatus
  have hvalid' := hkeeps r hvalid
  obtain ⟨id, hid⟩ := HandleTables.isValid_iff.mp hvalid
  obtain ⟨id', hid'⟩ := HandleTables.isValid_iff.mp hvalid'
  refine ⟨hvalid', ?_⟩
  rw [hid, hid', hsound.inspect_unchanged h.evolves.succeeds hid hid']

end Upkeep

theorem Stage.upkeep (h : Stage start op c c₁) : Upkeep (op = .collect) c c₁ :=
  ⟨h.evolves, h.gone, h.keeps.imp_right fun h' => h'.imp_right h.gone⟩

theorem upkeep_step {out : StepOutcome σ ρ} (h : c.step op = .ok out) :
    Upkeep (op = .collect) c out.2 :=
  (stages_step h).rel Upkeep.refl Upkeep.trans Stage.upkeep

theorem upkeep_run {ops : List (Operation σ ρ)} (h : c.run ops = .ok c₁) :
    Upkeep (.collect ∈ ops) c c₁ := by
  induction ops generalizing c with
  | nil =>
    cases h
    exact .refl _
  | cons op ops ih =>
    obtain ⟨out, hout, hrest⟩ := run_cons.mp h
    have hfirst : Upkeep (.collect ∈ op :: ops) c out.2 :=
      (upkeep_step hout).mono fun hop => List.mem_cons.mpr (.inl hop.symm)
    exact hfirst.trans ((ih hrest).mono (List.mem_cons_of_mem op))

end Connection

/-! ## New connections -/

namespace ManagerPlan

variable {config : Config} {path : ObjectPath}

theorem sustains_build (plan : ManagerPlan σ ρ) (tables : HandleTables) :
    tables.Sustains (plan.build config path tables).2 := by
  cases plan with
  | custom b state => exact tables.sustains_retainAll _
  | contacts server data =>
    have hopens : ContactScene.Acts server ContactScene.anyChannel
        (ContactScene.mk (emptyList config path server.capabilities) data
          (tables.exchangeContacts (server.holds data) []) []) _ := ContactScene.acts_openLists _
    exact (tables.sustains_exchangeContacts _ _).trans hopens.sustains

theorem sustains_buildAll (plans : List (ManagerPlan σ ρ)) (tables : HandleTables) :
    tables.Sustains (buildAll config path tables plans).2 := by
  induction plans generalizing tables with
  | nil => exact .refl tables
  | cons plan plans ih => exact (plan.sustains_build tables).trans (ih _)

end ManagerPlan

namespace Connection

variable {c : Connection σ ρ}

/-- However a connection was used, its handle tables are sound. -/
theorem sound_run {backend : Backend} {config : Config} {tables : HandleTables}
    {plans : List (ManagerPlan σ ρ)} (hfresh : tables.Fresh) {ops : List (Operation σ ρ)}
    (hrun : (new backend config tables plans).run ops = .ok c) : c.tables.Sound := by
  have hbuilt : (new backend config tables plans).tables.Sound :=
    (ManagerPlan.sustains_buildAll plans tables).evolves.sound hfresh.counts.sound
  exact (upkeep_run hrun).evolves.sound hbuilt

end Connection

end Telepathy

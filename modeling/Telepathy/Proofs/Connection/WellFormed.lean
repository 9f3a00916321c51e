import Telepathy.Proofs.Connection.Attempts
import Telepathy.Proofs.Connection.Legacy
import Telepathy.Proofs.Connection.LocalUser
import Telepathy.Proofs.Connection.RosterArrival
import Telepathy.Proofs.ContactList.WellFormed

set_option autoImplicit false

/-!
# The contact lists of a connection are well formed

Whoever else uses the handle tables of a connection, and whatever is reclaimed, a channel's handle
stays in use, since the channel holds a reference; and what a handle in use names it named when the
channel opened. The rest a contact list sees to itself. So in every run all contact lists are well
formed.
-/

namespace Telepathy

variable {σ ρ : Type}

namespace Connection

variable {c : Connection σ ρ} {seat : Nat} {server : ContactServer ρ} {list : ContactList}
  {data : ρ} {others : List Reference}

/-- In every run, contact lists have channels only for what their protocols have, and none once the
connection is gone. -/
theorem run_keepsSparing (backend : Backend) (config : Config) (tables : HandleTables)
    (plans : List (ManagerPlan σ ρ)) {ops : List (Operation σ ρ)}
    (hrun : (new backend config tables plans).run ops = .ok c) :
    AllManagers (Manager.OfLists fun _ list => list.Sparing) c :=
  run_keepsLists (Manager.lasting_ofLists (fun _ _ => ContactScene.sparing_offer)
    (fun _ _ => ContactScene.sparing_perform) fun _ s _ => s.sparing_disconnect)
    (fun server _ hpending hnone => ContactScene.sparing_openLists server hpending hnone) hrun

/-- The handle of every channel is in use. -/
theorem Balanced.isValid_channel (h : Balanced others c)
    (hm : c.managers[seat]? = some (.contacts server list data)) {t : ContactTarget}
    {ch : ContactChannel} (hc : list.channels.get? t = some ch) :
    c.tables.isValid ⟨t.entity, ch.handle⟩ = true := by
  have hlist : ⟨t.entity, ch.handle⟩ ∈ list.references :=
    List.mem_flatMap.mpr ⟨(t, ch), SortedMap.get?_eq_some_iff.mp hc, List.mem_cons_self⟩
  have hown : ⟨t.entity, ch.handle⟩ ∈ c.own :=
    List.mem_append_right _ (List.mem_flatMap.mpr
      ⟨_, List.mem_of_getElem? hm, List.mem_append_right _ hlist⟩)
  exact h.counts.isValid (List.mem_append_right _ (List.mem_append_left _ hown))

/-- In every run in which references are taken only on handles in use, if the tables take the
identifiers of lists and groups as they are, all contact lists are well formed. Each channel stands
for the target under which it is kept and for no other: its handle is in use and names the target,
and its path is made of this handle. No two channels have the same path, so the channel that is
found at a path is the only one there. There are channels only for what the protocol has; in groups
nobody waits; as long as the roster is on its way, and when it cannot be retrieved, nobody is in any
channel and clients know of none; and once the connection is gone there is none. -/
theorem run_keeps_wellFormed (backend : Backend) (config : Config) {tables : HandleTables}
    (hcoherent : tables.Coherent)
    (hverbatim : ∀ (target : ContactTarget) t, tables.get? target.entity = some t →
      t.normalise = HandleTable.verbatim)
    (hcounts : tables.Counts others) {plans : List (ManagerPlan σ ρ)}
    (hplans : ∀ plan ∈ plans, plan.Careful (new backend config tables plans).names.path tables)
    {ops : List (Operation σ ρ)} (hops : CarefulRun (new backend config tables plans) ops)
    (hrun : (new backend config tables plans).run ops = .ok c)
    (hm : c.managers[seat]? = some (.contacts server list data)) :
    list.WellFormed server c.tables := by
  have hnew : (new backend config tables plans).AllArranged :=
    ManagerPlan.arranged_buildAll ⟨hcoherent, hverbatim⟩ plans
  have harranged : (ContactScene.mk list data c.tables []).Arranged none :=
    hnew.run hrun _ (List.mem_of_getElem? hm)
  have hbooks : KeepsBooks others c := (keepsBooks_new backend config hcounts hplans).run hops hrun
  have htidy : list.Tidy server := run_keepsTidy backend config tables plans hrun seat _ hm
  have hsparing : list.Sparing := run_keepsSparing backend config tables plans hrun seat _ hm
  obtain ⟨hcapabilities, hunfilled⟩ :=
    (allAwait_new backend config tables plans).run Manager.awaits_lasting hrun seat _ hm
  exact harranged.wellFormed (fun t ch => hbooks.balanced.isValid_channel hm) hcapabilities htidy
    hunfilled hsparing

/-- All four lists and a group have channels, each at a place of its own. -/
theorem befriending_wellFormed :
    ∃ c server list data, sociable.run befriending = .ok c ∧
      c.managers[0]? = some (.contacts server list data) ∧
      list.channels.toList.length = 5 ∧ list.WellFormed server c.tables := by
  have heval : ((sociable.run befriending).toOption.any (contactsWith fun _ s =>
      decide (s.list.channels.toList.length = 5))) = true := by
    decide +kernel
  obtain ⟨c, hrun, hc⟩ := Except.eq_ok_of_any heval
  obtain ⟨server, list, data, hm, hs⟩ := of_contactsWith hc
  have hplans : ∀ plan ∈ [ManagerPlan.contacts (σ := Unit)
      (MemoryRoster.server ⟨true, true, false, true, .editable .native⟩ [] false) .empty],
      plan.Careful sociable.names.path
        ⟨.onDemand .contact, none, some (.onDemand .list), some (.onDemand .group)⟩ := by
    intro plan hplan
    rw [List.mem_singleton.mp hplan]
    exact ⟨MemoryRoster.careful_server _ _ _, fun h hh => absurd hh List.not_mem_nil⟩
  have hops : CarefulRun sociable befriending := by
    refine Throughout.of_forall fun op hop c => ?_
    simp only [befriending, List.mem_cons, List.not_mem_nil, or_false] at hop
    rcases hop with rfl | rfl | rfl | rfl <;> trivial
  exact ⟨c, server, list, data, hrun, hm, of_decide_eq_true hs,
    run_keeps_wellFormed _ _ (fun e t ht => (initial_sociable e t ht).coherent)
      (fun target t ht => by cases target <;> cases ht <;> rfl) initial_sociable.fresh.counts
      hplans hops hrun hm⟩

end Connection

end Telepathy

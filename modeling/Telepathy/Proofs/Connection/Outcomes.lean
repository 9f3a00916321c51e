import Telepathy.Proofs.Connection.Waiting
import Telepathy.Proofs.ContactList.Outcomes

set_option autoImplicit false

/-!
# Requests for lists and groups on a connection

Whatever happened on a connection before, what comes of a request for a list or a group is what the
checks of the contact list say in their order. While the roster is on its way no channel is known to
clients, so a request that passes the checks waits; once it is there, all groups are known, and all
lists if they could be opened in time, so a request that an existing channel answers is answered at
once.
-/

namespace Telepathy.Connection

variable {σ ρ : Type} {c : Connection σ ρ} {seat : Nat}

/-- In every run, a contact list handles every request as its checks say, and which channels clients
know of depends on the roster: none while it is on its way; all groups once it is there, and then
also every list that the protocol has, if the tables could give handles to the lists in time. -/
theorem run_handles_requests (backend : Backend) (config : Config) (tables : HandleTables)
    (plans : List (ManagerPlan σ ρ)) {ops : List (Operation σ ρ)}
    (hrun : (new backend config tables plans).run ops = .ok c) {server : ContactServer ρ}
    {s : ContactScene ρ} (hm : c.managers[seat]? = some (.contacts server s.list s.server)) :
    (∀ r, s.Handles server r (s.offer server r)) ∧
    (s.list.roster = .pending → s.list.Unannounced) ∧
    (s.list.roster = .received →
      (∀ name ch, s.list.group? name = some ch → ch.announced = true) ∧
      ((new backend config tables plans).ListsInTime seat ops →
        ∀ k, k.isSupported s.list.capabilities = true →
          ∃ ch, s.list.list? k = some ch ∧ ch.announced = true)) := by
  have hawaits := allAwait_new backend config tables plans
  obtain ⟨-, hunfilled⟩ := hawaits.run Manager.awaits_lasting hrun seat _ hm
  have hsettled : ∀ Q : ContactTarget → Prop,
      (∀ k, Q (.list k) → (new backend config tables plans).ListsInTime seat ops) →
        s.list.roster = .received → s.list.Settled Q := fun Q hlists hreceived =>
    (promptAt_new backend config tables plans seat).run hawaits hlists hrun _ hm hreceived
  refine ⟨s.handles_offer server, hunfilled.unannounced, fun hreceived => ⟨?_, ?_⟩⟩
  · intro name ch hch
    have hgroups := hsettled (fun t => t.entity = .group) (by simp [ContactTarget.entity]) hreceived
    exact (hgroups.told (.group name) ch hch rfl).1
  · intro hlists k hk
    have hall := hsettled (fun _ => True) (fun _ _ => hlists) hreceived
    obtain ⟨ch, hch⟩ := ContactList.hasChannel_iff.mp (hall.lists k trivial hk)
    exact ⟨ch, hch, (hall.told (.list k) ch hch trivial).1⟩

/-- A client's request for a new group. -/
def forming (name : String) : ChannelRequest :=
  ⟨⟨1⟩, .create, Property.contactListType, .group, none, some name, .empty⟩

/-- Once the roster is there, a group that a client requests under a name with blanks around it is
created under the name without them. -/
theorem forming_creates :
    ∃ c server list data, (listing (.editable .native)).run [.contacts 0 .received] = .ok c ∧
      c.managers[0]? = some (.contacts server list data) ∧
      let s : ContactScene MemoryRoster := ⟨list, data, c.tables, []⟩
      s.Creates server (forming " work ") "work" (s.offer server (forming " work ")) := by
  have heval : (((listing (.editable .native)).run [.contacts 0 .received]).toOption.any
      (contactsWith fun server s =>
        decide (server.normaliseGroup " work " = some "work" ∧ s.list.roster = .received ∧
          s.list.capabilities.groups.isSupported = true ∧
          s.list.capabilities.groups.isEditable = true ∧ s.list.group? "work" = none ∧
          s.tables.Gives .group "work"))) = true := by
    decide +kernel
  obtain ⟨c, hrun, hc⟩ := Except.eq_ok_of_any heval
  obtain ⟨server, list, data, hm, hs⟩ := of_contactsWith hc
  obtain ⟨hname, hreceived, hgroups, heditable, hnone, hgives⟩ := of_decide_eq_true hs
  let s : ContactScene MemoryRoster := ⟨list, data, c.tables, []⟩
  obtain ⟨hhandles, -, -⟩ := run_handles_requests (s := s) _ _ _ _ hrun hm
  have habsent : ¬ s.list.HasChannel (.group "work") := Option.not_isSome_iff_eq_none.mpr hnone
  have hserves := (hhandles (forming " work ")).group ⟨rfl, rfl⟩ hgroups "work" hname (.inr hgives)
  exact ⟨c, server, list, data, hrun, hm, hserves.creates hreceived habsent heditable⟩

end Telepathy.Connection

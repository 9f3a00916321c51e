import Telepathy.Proofs.Connection.RosterArrival
import Telepathy.Proofs.ContactList.Gate

set_option autoImplicit false

/-!
# What clients may make a server do

On every connection the channels of a contact list have the flags that its capabilities grant, and
nothing a client asks reaches the server without passing them. So the server is never made to act on
a contact against what the protocol allows for that channel.
-/

namespace Telepathy

variable {σ ρ : Type}

namespace Connection

variable {c : Connection σ ρ}

/-- In every run, all channels of contact lists have the flags that the capabilities grant. -/
theorem run_keepsFlagged (backend : Backend) (config : Config) (tables : HandleTables)
    (plans : List (ManagerPlan σ ρ)) {ops : List (Operation σ ρ)}
    (hrun : (new backend config tables plans).run ops = .ok c) :
    AllManagers (Manager.OfLists fun _ list => list.Flagged) c :=
  run_keepsLists (Manager.lasting_ofLists (fun _ _ => ContactScene.flagged_offer)
    (fun _ _ => ContactScene.flagged_perform) fun _ s _ => s.flagged_disconnect)
    (fun server _ _ hnone => ContactScene.flagged_openLists server hnone) hrun

end Connection

/-- In some run of some connection, a contact list of this server comes to this state. -/
def ContactList.Arises (server : ContactServer ρ) (l : ContactList) : Prop :=
  ∃ (σ : Type) (backend : Backend) (config : Config) (tables : HandleTables)
    (plans : List (ManagerPlan σ ρ)) (ops : List (Operation σ ρ)) (c : Connection σ ρ)
    (seat : Nat) (data : ρ), (Connection.new backend config tables plans).run ops = .ok c ∧
      c.managers[seat]? = some (.contacts server l data)

theorem ContactList.Arises.flagged {server : ContactServer ρ} {l : ContactList}
    (h : l.Arises server) : l.Flagged := by
  obtain ⟨σ, backend, config, tables, plans, ops, c, seat, data, hrun, hm⟩ := h
  exact Connection.run_keepsFlagged backend config tables plans hrun seat _ hm

namespace ContactScene

variable {server : ContactServer ρ} {s : ContactScene ρ} {path : ObjectPath} {t : ContactTarget}
  {c : ContactChannel}

/-- Once the roster is there, the flags of a channel decide every call by which a client changes who
is in it. An addition is denied without a call if it concerns a contact that is neither a member nor
asks to be let in while the channel lacks the flag for adding; otherwise the server is asked, once,
to add those who are not members, if any. A removal fails without a call at the first contact that
is nowhere in the channel, or is where it may not be removed from; otherwise the server is asked,
once, to remove them all. And since the flags of a channel that arises are those that the
capabilities grant, no client makes the server act on a contact against them. -/
theorem gate_decides_calls (server : ContactServer ρ) (hreceived : s.list.roster = .received)
    (hat : s.list.at? path = some (t, c)) :
    (∀ contacts message, s.GatesAddition server path t c.membership contacts message) ∧
      (∀ contacts, s.GatesRemoval server path t c.membership contacts) ∧
      (s.list.Arises server →
        c.membership.flags = s.list.flagsOf t ∧
        (∀ contacts message, (s.addMembers server path contacts message).2.calls ≠ s.calls →
          ∀ h ∈ contacts, h ∈ c.membership.members ∨ h ∈ c.membership.localPending ∨
            t.letsAdd s.list.capabilities = true) ∧
        (∀ contacts, (s.removeMembers server path contacts).2.calls ≠ s.calls →
          ∀ h ∈ contacts,
            (h ∈ c.membership.members ∨ h ∈ c.membership.localPending) ∧
                t.letsRemove s.list.capabilities = true ∨
              h ∈ c.membership.remotePending ∧ t.letsRescind s.list.capabilities = true)) := by
  have hadds := gatesAddition server hreceived hat
  have hremoves := gatesRemoval server hreceived hat
  refine ⟨hadds, hremoves, fun harises => ?_⟩
  obtain ⟨hthere, -⟩ := ContactList.of_at? hat
  have hflags := harises.flagged t c hthere
  obtain ⟨hletsAdd, hletsRemove, hletsRescind⟩ := s.list.has_flagsOf t
  refine ⟨hflags, fun contacts message hcalls h hmem => ?_, fun contacts hcalls h hmem => ?_⟩
  · have hallowed := allowed_of_addition hreceived hat hcalls h hmem
    rw [← hletsAdd, ← hflags]
    exact Membership.of_not_forbidsAdding hallowed
  · have hallowed := allowed_of_removal hreceived hat hcalls h hmem
    rw [← hletsRemove, ← hletsRescind, ← hflags]
    exact Membership.of_not_refusesRemoval hallowed

/-- Alice, the second who got a handle, asks for the user's presence, and Bob, the third, does not.
So a client may not add both to those who receive it, but Alice alone, which is one call; and both
cannot be removed either, because Bob is not there. -/
theorem publish_gated :
    let start := Connection.listing (.editable .native)
    let path := (start.names.path.child "ContactList").child "List2"
    let alice : Handle := ⟨2, by decide⟩
    let bob : Handle := ⟨3, by decide⟩
    ∃ c server list data,
      start.run (Connection.beforeRoster ++ [.contacts 0 .received]) = .ok c ∧
      c.managers[0]? = some (.contacts server list data) ∧
      let s : ContactScene MemoryRoster := ⟨list, data, c.tables, []⟩
      (∃ r, s.addMembers server path (.ofList [alice, bob]) "" = (.error r, s) ∧
        r.toError.kind = .permissionDenied) ∧
      s.AsksOnce (s.addMembers server path (.ofList [alice]) "").2
        (.authorizePublication (.ofList [alice])) ∧
      ∃ r, s.removeMembers server path (.ofList [alice, bob]) = (.error r, s) ∧
        r.toError = ⟨.notAvailable, "handle 3 is not a current or pending member"⟩ := by
  intro start path alice bob
  have heval : ((start.run (Connection.beforeRoster ++ [.contacts 0 .received])).toOption.any
      fun c => c.managers[0]?.any fun m =>
        match m with
        | .contacts _ list _ =>
          decide (list.roster = .received) && (list.at? path).any fun e =>
            decide (e.1 = .list .publish ∧ e.2.membership.members = .empty ∧
              e.2.membership.localPending = .ofList [alice] ∧
              e.2.membership.remotePending = .empty ∧ e.2.membership.flags.has .canAdd = false ∧
              e.2.membership.flags.has .canRemove = true)
        | .custom _ _ => false) = true := by
    decide +kernel
  obtain ⟨c, hrun, hc⟩ := Except.eq_ok_of_any heval
  obtain ⟨m, hm, hlist⟩ := (Option.any_eq_true _ _).mp hc
  cases m with
  | custom b state => cases hlist
  | contacts server list data =>
    rw [Bool.and_eq_true, decide_eq_true_iff] at hlist
    obtain ⟨hreceived, hat⟩ := hlist
    obtain ⟨⟨t, channel⟩, hat, hchannel⟩ := (Option.any_eq_true _ _).mp hat
    obtain ⟨ht, hmembers, hlocal, hremote, hadd, hremove⟩ := of_decide_eq_true hchannel
    cases ht
    obtain ⟨hadds, hremoves, -⟩ := gate_decides_calls (s := ⟨list, data, c.tables, []⟩) server
      hreceived hat
    have hforbids : channel.membership.ForbidsAdding bob := by
      simp only [Membership.ForbidsAdding, hmembers, hlocal]
      exact ⟨by decide, by decide, hadd⟩
    have hallowed : ∀ h ∈ SortedSet.ofList [alice], ¬ channel.membership.ForbidsAdding h := by
      intro h hh hforbids
      exact hforbids.2.1 (hlocal ▸ hh)
    have hboth := hadds (.ofList [alice, bob]) ""
    have hone := hadds (.ofList [alice]) ""
    refine ⟨c, server, list, data, hrun, hm, ?_, ?_, ?_⟩
    · obtain ⟨-, r, hr, hkind⟩ := hboth.denied.mpr ⟨bob, by decide, hforbids⟩
      exact ⟨r, Prod.ext hr (hboth.untouched ⟨bob, by decide, hforbids⟩), hkind⟩
    · have hasked := hone.asked hallowed (by rw [hmembers]; rfl)
      rw [hmembers] at hasked
      exact hasked
    · have habsent : channel.membership.RefusesRemoval bob
          ⟨.notAvailable, "handle 3 is not a current or pending member"⟩ := by
        have htext : s!"handle {bob.text} is not a current or pending member" =
            "handle 3 is not a current or pending member" := by decide +kernel
        rw [← htext]
        refine .absent ?_ ?_ ?_
        · rw [hmembers]; decide
        · rw [hlocal]; decide
        · rw [hremote]; decide
      refine (hremoves (.ofList [alice, bob])).denied bob (by decide) _ habsent ?_
      -- Alice comes first, and may be removed.
      intro h hh hless e hrefuses
      have halice : h = alice := by
        have hcases : h = alice ∨ h = bob := by simpa using hh
        exact hcases.resolve_right fun hbob => absurd hless (by rw [hbob]; decide)
      subst halice
      cases hrefuses with
      | absent _ hnowhere => exact hnowhere (by rw [hlocal]; decide)
      | kept _ hflag => rw [hremove] at hflag; cases hflag
      | invited hinvited => rw [hremote] at hinvited; exact absurd hinvited (by decide)

end ContactScene

end Telepathy

import Telepathy.Proofs.Connection.Renamings
import Telepathy.Proofs.Connection.Permissions
import Telepathy.Proofs.ContactList.Regrouping

set_option autoImplicit false

/-!
# Who is in which group

On every connection with groups, once the roster is there, what the server says of contacts who
joined and left groups is what the channels of the groups say afterwards, and what a client does to
the members of a group concerns that group alone.
-/

namespace Telepathy

variable {ρ : Type}

theorem ContactList.Arises.tidy {server : ContactServer ρ} {l : ContactList}
    (h : l.Arises server) : l.Tidy server := by
  obtain ⟨σ, backend, config, tables, plans, ops, c, seat, data, hrun, hm⟩ := h
  exact Connection.run_keepsTidy backend config tables plans hrun seat _ hm

namespace ContactScene

/-- Notices of joined and left groups are exact, whatever they name: groups that are joined are
known to clients, members come and go as the lists of names say, leaving after joining, and nothing
else moves or is heard of. A client's addition to a group or removal from it that succeeds changes
just the members of that group. -/
theorem groups_exact {server : ContactServer ρ} {s : ContactScene ρ}
    (hidempotent : ∀ name canonical, server.normaliseGroup name = some canonical →
      server.normaliseGroup canonical = some canonical)
    (harises : s.list.Arises server) (hreceived : s.list.roster = .received)
    (hgroups : s.list.capabilities.groups.isSupported = true) :
    (∀ contacts added removed,
      (∀ name ∈ added.filterMap server.normaliseGroup, s.tables.Gives .group name) →
        s.Regroups contacts (added.filterMap server.normaliseGroup)
          (removed.filterMap server.normaliseGroup)
          (s.groupsChanged server contacts added removed)) ∧
      ∀ path name c contacts, s.list.at? path = some (.group name, c) →
        (∀ message s', s.addMembers server path contacts message = (.ok (), s') →
          s.Restaffs name (c.membership.members.union contacts) s') ∧
        ∀ s', s.removeMembers server path contacts = (.ok (), s') →
          s.Restaffs name (c.membership.members.diff contacts) s' :=
  ⟨fun _ _ _ hgives => regroups_groupsChanged hreceived hgroups harises.tidy _ _ _
      fun name hname => .inr (hgives name hname),
    fun _ _ _ _ hat => ⟨fun _ _ => restaffs_addMembers hidempotent harises.tidy hat,
      fun _ => restaffs_removeMembers hidempotent harises.tidy hat⟩⟩

/-- Whether a contact list has a group that consists of these contacts at a path, and the server
lets a client remove them. -/
def removable (path : ObjectPath) (name : String) (contacts : SortedSet Handle)
    (c : Connection Unit MemoryRoster) : Bool :=
  c.contactsWith fun server s =>
    s.list.roster = .received && s.list.capabilities.groups.isSupported &&
      ((s.list.at? path).any fun e =>
        decide (e.1 = .group name ∧ e.2.membership.members = contacts)) &&
      (s.removeMembers server path contacts).1.isOk

theorem of_removable {path : ObjectPath} {name : String} {contacts : SortedSet Handle}
    {c : Connection Unit MemoryRoster} (h : removable path name contacts c = true) :
    ∃ server list data channel s', c.managers[0]? = some (.contacts server list data) ∧
      list.roster = .received ∧ list.capabilities.groups.isSupported = true ∧
      list.at? path = some (.group name, channel) ∧ channel.membership.members = contacts ∧
      (ContactScene.mk list data c.tables []).removeMembers server path contacts =
        (.ok (), s') := by
  obtain ⟨server, list, data, hm, h⟩ := Connection.of_contactsWith h
  simp only [Bool.and_eq_true, decide_eq_true_eq, Option.any_eq_true] at h
  obtain ⟨⟨⟨hreceived, hgroups⟩, ⟨t, channel⟩, hat, ht, hmembers⟩, hok⟩ := h
  cases ht
  generalize hremoved : (ContactScene.mk list data c.tables []).removeMembers server path
    contacts = outcome at hok
  obtain ⟨_ | ⟨⟩, s'⟩ := outcome
  · cases hok
  · exact ⟨server, list, data, channel, s', hm, hreceived, hgroups, hat, hmembers, hremoved⟩

/-- Alice, a friend, joins her group once more and a new one twice, and leaves the first and one
that nobody has; and a client removes her from her group. -/
theorem aliceBefriended_regrouped :
    let start := Connection.listing (.editable .native)
    let path := (start.names.path.child "ContactList").child "Group1"
    let alice : SortedSet Handle := .ofList [.first]
    ∃ c server list data, start.run Connection.aliceBefriended = .ok c ∧
      c.managers[0]? = some (.contacts server list data) ∧
      let s : ContactScene MemoryRoster := ⟨list, data, c.tables, []⟩
      s.Regroups alice ["friends", "pals", "pals"] ["friends", "strangers"]
        (s.groupsChanged server alice ["friends", " pals ", "", "pals"]
          [" friends", "strangers"]) ∧
      ∃ s', s.removeMembers server path alice = (.ok (), s') ∧
        s.Restaffs "friends" (alice.diff alice) s' := by
  intro start path alice
  have heval : ((start.run Connection.aliceBefriended).toOption.any fun c =>
      removable path "friends" alice c && decide (c.tables.Gives .group "friends") &&
        decide (c.tables.Gives .group "pals")) = true := by
    decide +kernel
  obtain ⟨c, hrun, hc⟩ := Except.eq_ok_of_any heval
  simp only [Bool.and_eq_true, decide_eq_true_eq] at hc
  obtain ⟨⟨hremovable, hfriends⟩, hpals⟩ := hc
  obtain ⟨server, list, data, channel, s', hm, hreceived, hgroups, hat, hmembers, hremoved⟩ :=
    of_removable hremovable
  obtain ⟨hidempotent, hadded, hremovals⟩ := Connection.run_keepsServers
    (P := fun server : ContactServer MemoryRoster =>
      (∀ name canonical, server.normaliseGroup name = some canonical →
        server.normaliseGroup canonical = some canonical) ∧
      ["friends", " pals ", "", "pals"].filterMap server.normaliseGroup =
        ["friends", "pals", "pals"] ∧
      [" friends", "strangers"].filterMap server.normaliseGroup = ["friends", "strangers"])
    (fun server data hplan => by
      cases List.mem_singleton.mp hplan
      exact ⟨fun _ _ => MemoryRoster.idempotent_normaliseGroup _ _ _, by decide +kernel,
        by decide +kernel⟩) hrun 0 _ hm
  let s : ContactScene MemoryRoster := ⟨list, data, c.tables, []⟩
  have harises : s.list.Arises server :=
    ⟨_, _, _, _, _, _, c, 0, data, hrun, hm⟩
  obtain ⟨hnotices, hclients⟩ := groups_exact (s := s) hidempotent harises hreceived hgroups
  have hregroups := hnotices alice ["friends", " pals ", "", "pals"] [" friends", "strangers"]
  rw [hadded, hremovals] at hregroups
  have hrestaffs := (hclients path "friends" channel alice hat).2 s' hremoved
  rw [hmembers] at hrestaffs
  refine ⟨c, server, list, data, hrun, hm, hregroups fun name hname => ?_, s', hremoved, hrestaffs⟩
  simp only [List.mem_cons, List.not_mem_nil, or_false, or_self] at hname
  obtain rfl | rfl := hname
  · exact hfriends
  · exact hpals

end ContactScene

end Telepathy

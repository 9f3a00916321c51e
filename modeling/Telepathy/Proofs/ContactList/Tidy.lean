import Telepathy.Proofs.ContactList.Offers

set_option autoImplicit false

/-!
# The groups of a contact list are in order

A contact list has channels for groups only while it follows groups, and only under names as its
server spells them; and in a group everybody is a full member, since nobody is ever invited to one
or asks to be let in. Every operation, every request and the end of the connection leave it so.
-/

namespace Telepathy

/-- Everybody with a standing is a full member. -/
def Membership.Plain (m : Membership) : Prop :=
  ∀ h standing, m.standings.get? h = some standing → standing = .member

namespace Membership

theorem plain_new (self : Option Handle) (flags : GroupFlags) : (new self flags).Plain :=
  fun h standing hstanding => by simp [new] at hstanding

/-- A batch that only lets contacts in or out leaves nobody waiting. -/
theorem Plain.change {m : Membership} {b : MembershipChange} (h : m.Plain) (hb : b.Settles) :
    (m.change b).membership.Plain := by
  intro x standing hx
  rw [change_get?] at hx
  cases hplace : b.places.get? x with
  | none =>
    rw [hplace] at hx
    exact h x standing hx
  | some p =>
    rw [hplace] at hx
    rcases hb x p hplace with rfl | rfl
    · exact (Option.some.inj hx).symm
    · cases hx

/-- In such a group nobody waits, and everybody is among the members. -/
theorem Plain.everyone_eq {m : Membership} (h : m.Plain) : m.everyone = m.members := by
  refine SortedSet.ext_mem fun x => ?_
  rw [mem_members, everyone, SortedMap.mem_keySet]
  exact ⟨fun ⟨standing, hx⟩ => h x standing hx ▸ hx, fun hx => ⟨_, hx⟩⟩

end Membership

/-- The groups of a contact list are in order. -/
structure ContactList.Tidy {σ : Type} (server : ContactServer σ) (l : ContactList) : Prop where
  follows : ∀ name c, l.group? name = some c → l.followsGroups = true
  spelled : ∀ name c, l.group? name = some c → server.Spells name
  plain : ∀ name c, l.group? name = some c → c.membership.Plain

/-- The groups stay in order as long as they are the same. -/
theorem ContactList.Tidy.sameGroups {σ : Type} {server : ContactServer σ} {l l' : ContactList}
    (h : l.Tidy server) (hsame : l.SameGroups l') : l'.Tidy server where
  follows name c' hc' := by
    obtain ⟨c, hc, -⟩ := hsame.memberships (.group name) c' hc'
    exact (followsGroups_of_settings hsame.settings).trans (h.follows name c hc)
  spelled name c' hc' := by
    obtain ⟨c, hc, -⟩ := hsame.memberships (.group name) c' hc'
    exact h.spelled name c hc
  plain name c' hc' := by
    obtain ⟨c, hc, hmembership⟩ := hsame.memberships (.group name) c' hc'
    exact hmembership ▸ h.plain name c hc

namespace ContactScene

variable {σ : Type} {server : ContactServer σ} {s s₁ : ContactScene σ}

/-- The groups stay in order if those that are there were there before, with nobody waiting now if
nobody waited then, or are new and in order. -/
theorem tidy_of_groups (h : s.list.Tidy server)
    (hfollows : s.list.followsGroups = true → s₁.list.followsGroups = true)
    (hgroups : ∀ name c', s₁.list.group? name = some c' →
      (∃ c, s.list.group? name = some c ∧ (c.membership.Plain → c'.membership.Plain)) ∨
        s.list.followsGroups = true ∧ server.Spells name ∧ c'.membership.Plain) :
    s₁.list.Tidy server where
  follows name c' hc' := by
    obtain ⟨c, hc, -⟩ | ⟨hnew, -, -⟩ := hgroups name c' hc'
    · exact hfollows (h.follows name c hc)
    · exact hfollows hnew
  spelled name c' hc' := by
    obtain ⟨c, hc, -⟩ | ⟨-, hname, -⟩ := hgroups name c' hc'
    · exact h.spelled name c hc
    · exact hname
  plain name c' hc' := by
    obtain ⟨c, hc, hplain⟩ | ⟨-, -, hplain⟩ := hgroups name c' hc'
    · exact hplain (h.plain name c hc)
    · exact hplain

/-- The groups stay in order if they come from where a step leaves them. -/
theorem tidy_of_origin (h : s.list.Tidy server)
    (hfollows : s.list.followsGroups = true → s₁.list.followsGroups = true)
    (horigin : ∀ {t c'}, s₁.list.channels.get? t = some c' → Origin server s t c') :
    s₁.list.Tidy server := by
  refine tidy_of_groups h hfollows fun name c' hc' => ?_
  cases horigin hc' with
  | kept hc hsame _ => exact .inl ⟨_, hc, fun hplain => hsame ▸ hplain⟩
  | changed hc hgroup => exact .inl ⟨_, hc, fun hplain => hplain.change (hgroup name rfl)⟩
  | opened hopenable =>
    obtain ⟨hfollows, hname⟩ := hopenable
    exact .inr ⟨hfollows, hname, Membership.plain_new _ _⟩

theorem tidy_openChannel {t : ContactTarget} {requested : Bool} (h : s.list.Tidy server)
    (ht : t.Openable server s.list) (hopen : s.openChannel t requested = .ok s₁) :
    s₁.list.Tidy server :=
  tidy_of_origin h
    (ContactList.followsGroups_of_settings (settings_openChannel s hopen)).trans
    (origin_openChannel ht hopen)

/-- No step of an operation disturbs the order. -/
theorem Task.tidy (htask : Task server s s₁) (h : s.list.Tidy server) : s₁.list.Tidy server :=
  tidy_of_origin h htask.followsGroups htask.origin

theorem tidy_perform (op : ContactOperation (SortedSet Handle)) (h : s.list.Tidy server) :
    (s.perform server op).2.list.Tidy server :=
  (tasks_perform s op).keeps (I := fun s => s.list.Tidy server) Task.tidy h

/-- Requests open only groups that are in order. -/
theorem tidy_offer (r : ChannelRequest) (h : s.list.Tidy server) :
    (s.offer server r).2.list.Tidy server :=
  keeps_offer (I := ContactList.Tidy server) tidy_openChannel ContactList.Tidy.sameGroups r h

theorem tidy_disconnect (s : ContactScene σ) : s.disconnect.list.Tidy server := by
  have hnone : ∀ name, s.disconnect.list.group? name = none := fun name => by
    rw [ContactList.group?, s.ended_disconnect.2, SortedMap.get?_empty]
  constructor
  all_goals
    intro name c hc
    rw [hnone] at hc
    cases hc

/-- A contact list without channels is in order, and so it is once its lists are opened. -/
theorem tidy_openLists (h : s.list.channels = .empty) : s.openLists.list.Tidy server := by
  refine (tasks_openLists s).keeps (I := fun s => s.list.Tidy server) Task.tidy ?_
  have hnone : ∀ name, s.list.group? name = none := fun name => by
    rw [ContactList.group?, h, SortedMap.get?_empty]
  constructor
  all_goals
    intro name c hc
    rw [hnone] at hc
    cases hc

end ContactScene

end Telepathy

import Telepathy.Proofs.Connection.Announcements
import Telepathy.Proofs.Connection.Outcomes
import Telepathy.Proofs.Connection.Tables
import Telepathy.Proofs.ContactList.Legacy

set_option autoImplicit false

/-!
# Old clients of a connection

In every run, old clients find each channel of a contact list at its path, since channels keep their
places: those of one contact list have different paths when they open, and nothing that happens to
the handle tables in the meantime changes that. So the view of old clients shows each contact list
as it is, and what they do by it comes to the same as what other clients do.
-/

namespace Telepathy

variable {σ ρ : Type}

/-! ## Managers -/

namespace Manager

variable {m : Manager σ ρ} {tables tables' : HandleTables}

/-- The channels of a contact list are at their places, while the handle tables are these. -/
def Arranged (tables : HandleTables) : Manager σ ρ → Prop
  | .custom _ _ => True
  | .contacts _ list data => ContactScene.Arranged none ⟨list, data, tables, []⟩

theorem Arranged.evolves (h : m.Arranged tables) (htables : tables.Evolves tables') :
    m.Arranged tables' := by
  cases m with
  | custom b state => trivial
  | contacts server list data => exact ContactScene.Arranged.elsewhere h rfl rfl htables

theorem arranged_close (server : ContactServer ρ) {s : ContactScene ρ} (h : s.Arranged none) :
    (close server s : Turn σ ρ).manager.Arranged (close server s : Turn σ ρ).tables :=
  h.elsewhere rfl rfl (.refl _)

/-- However a call to a manager ends, the channels are at their places. -/
theorem Ends.arranged {start : Connection σ ρ} {op : Operation σ ρ} {seat : Nat} {status : Status}
    {t : Turn σ ρ} (ht : m.Ends start op seat status tables t) (h : m.Arranged tables) :
    t.manager.Arranged t.tables := by
  cases m with
  | custom b state =>
    cases ht with
    | performContacts _ _ _ hperform => cases hperform
    | changeServer _ _ _ _ hchange => cases hchange
    | changeState _ _ _ hchange =>
      cases hchange
      trivial
    | _ => trivial
  | contacts server list data =>
    let s : ContactScene ρ := ⟨list, data, tables, []⟩
    have hs : s.Arranged none := h
    cases ht with
    | offer htarget => exact arranged_close server (ContactScene.arranged_offer _ hs)
    | statusChanged =>
      by_cases hgone : status = .disconnected
      · simp only [Manager.statusChanged, if_pos hgone]
        exact arranged_close server (ContactScene.arranged_disconnect hs)
      · simp only [Manager.statusChanged, if_neg hgone]
        exact arranged_close server hs
    | performContacts _ _ _ hperform =>
      cases hperform
      exact arranged_close server (ContactScene.arranged_perform _ hs)
    | changeServer _ _ _ _ hchange =>
      cases hchange
      exact hs.elsewhere rfl rfl (HandleTables.evolves_exchangeContacts _ _ _)
    | changeState _ _ _ hchange => cases hchange

end Manager

namespace ManagerPlan

variable {config : Config} {path : ObjectPath} {tables : HandleTables}

theorem arranged_build (htables : tables.Faithful) (plan : ManagerPlan σ ρ) :
    (plan.build config path tables).1.Arranged (plan.build config path tables).2 := by
  cases plan with
  | custom b state => trivial
  | contacts server data =>
    have hempty : ContactScene.Arranged none ⟨emptyList config path server.capabilities, data,
        tables.exchangeContacts (server.holds data) [], []⟩ :=
      .of_no_channels (htables.evolves (HandleTables.evolves_exchangeContacts _ _ _)) rfl
    exact Manager.arranged_close (σ := σ) server (ContactScene.arranged_openLists server hempty)

/-- Whoever is built later does not change the places of channels that are there. -/
theorem arranged_buildAll (htables : tables.Faithful) (plans : List (ManagerPlan σ ρ)) :
    ∀ m ∈ (buildAll config path tables plans).1,
      m.Arranged (buildAll config path tables plans).2 := by
  induction plans generalizing tables with
  | nil =>
    intro m hm
    cases hm
  | cons plan plans ih =>
    intro m hm
    rcases List.mem_cons.mp hm with rfl | hm
    · exact (plan.arranged_build htables).evolves (sustains_buildAll plans _).evolves
    · exact ih (htables.evolves (plan.sustains_build tables).evolves) m hm

end ManagerPlan

/-! ## Runs -/

namespace Connection

variable {start c c₁ : Connection σ ρ} {op : Operation σ ρ} {seat : Nat}
  {server : ContactServer ρ} {list : ContactList} {data : ρ}

/-- The channels of all contact lists are at their places. -/
def AllArranged (c : Connection σ ρ) : Prop := ∀ m ∈ c.managers, m.Arranged c.tables

theorem AllArranged.stage (h : c.AllArranged) (hstage : Stage start op c c₁) :
    c₁.AllArranged := by
  rcases hstage.turns with hsame | ⟨seat, m, t, hm, hends, hturn⟩
  · intro m hm
    exact (h m (hsame ▸ hm)).evolves hstage.evolves
  · have htables := (sustains_takeTurn hturn).evolves
    intro m' hm'
    rw [(takeTurn_eq_ok hturn).2.1] at hm'
    rcases List.mem_or_eq_of_mem_set hm' with hother | rfl
    · exact (h m' hother).evolves hstage.evolves
    · exact (hends.arranged (h m (List.mem_of_getElem? hm))).evolves htables

theorem AllArranged.run (h : c.AllArranged) {ops : List (Operation σ ρ)}
    (hrun : c.run ops = .ok c₁) : c₁.AllArranged :=
  keeps_run (fun hstage h => h.stage hstage) h hrun

/-- In every run, if the tables take the identifiers of lists and groups as they are, the view of
old clients is that of all clients. Whoever gives contacts by number, in any order and as often as
they like, does the same as whoever gives the handles with these numbers, provided that all of them
are in use; otherwise a handle is invalid, and nothing changes. The announced channels are listed in
the order in which other clients see them, each as what it is, as long as handles are 32-bit words;
at the path of each, old clients find who is on it at the moment, and what it allows; and at every
other path there is no channel for them. -/
theorem run_agrees_with_legacy (backend : Backend) (config : Config) {tables : HandleTables}
    (hinitial : tables.Initial)
    (hverbatim : ∀ (target : ContactTarget) t, tables.get? target.entity = some t →
      t.normalise = HandleTable.verbatim)
    (plans : List (ManagerPlan σ ρ)) {ops : List (Operation σ ρ)}
    (hrun : (new backend config tables plans).run ops = .ok c)
    (hm : c.managers[seat]? = some (.contacts server list data)) :
    let s : ContactScene ρ := ⟨list, data, c.tables, []⟩
    (∀ path numbers message,
      ((∀ n ∈ numbers, c.tables.contact.Allots n) →
        s.perform server (.legacyAdd path numbers message) =
          s.perform server (.addMembers path (Handle.numbered numbers) message) ∧
        s.perform server (.legacyRemove path numbers) =
          s.perform server (.removeMembers path (Handle.numbered numbers))) ∧
      ((¬ ∀ n ∈ numbers, c.tables.contact.Allots n) →
        ∃ e : Error, e.kind = .invalidHandle ∧
          s.perform server (.legacyAdd path numbers message) = (.error e, s) ∧
          s.perform server (.legacyRemove path numbers) = (.error e, s))) ∧
    (list.channelDetails = list.announced.map (fun e => e.2.details e.1) ∧
      ((∀ e ∈ list.announced, e.2.handle.number < Value.wordLimit) →
        list.listings = list.announced.map fun e =>
          ⟨e.2.path, Property.contactListType, e.1.entity.wire, e.2.handle.number⟩)) ∧
    (∀ e ∈ list.announced, list.Shows e.2.path e.2.membership) ∧
    ∀ path, (∀ e ∈ list.announced, e.2.path ≠ path) →
      ∃ r, list.Hides path r ∧ r.toError.kind = .invalidArgument := by
  intro s
  have htables : tables.Faithful := ⟨fun e t ht => (hinitial e t ht).coherent, hverbatim⟩
  have hnew : (new backend config tables plans).AllArranged :=
    ManagerPlan.arranged_buildAll htables plans
  have harranged : s.Arranged none := hnew.run hrun _ (List.mem_of_getElem? hm)
  refine ⟨fun path numbers message => ⟨fun hnumbers => ?_, fun hnumbers => ?_⟩,
    ⟨rfl, fun hwords => ?_⟩, fun e he => harranged.shows he, fun path hpath => ?_⟩
  · exact s.perform_legacy_of_allots server hnumbers path message
  · exact s.perform_legacy_of_not_allots server hnumbers path message
  · rw [ContactList.listings, ContactList.channelDetails, List.map_map]
    exact List.map_congr_left fun e he => ContactChannel.listing_details e.1 (hwords e he)
  · exact ⟨_, ContactList.hides_of_not_announced hpath, rfl⟩

/-- The roster is there, a group has come into being, and two contacts have handles. -/
def befriending : List (Operation Unit MemoryRoster) :=
  [.contacts 0 .received, .contacts 0 (.groupsCreated ["friends"]), .intern .contact "amy" none,
    .intern .contact "bob" none]

/-- Whether somebody is given twice, or anybody in another order, makes no difference; zero is
nobody. The four lists and the group are listed. -/
theorem befriending_agrees :
    ∃ c server list data, sociable.run befriending = .ok c ∧
      c.managers[0]? = some (.contacts server list data) ∧
      let s : ContactScene MemoryRoster := ⟨list, data, c.tables, []⟩
      (∀ path message, s.perform server (.legacyAdd path [2, 1, 2] message) =
        s.perform server (.addMembers path (Handle.numbered [1, 2]) message)) ∧
      (∀ path, ∃ e : Error, e.kind = .invalidHandle ∧
        s.perform server (.legacyRemove path [2, 1, 0]) = (.error e, s)) ∧
      list.listings.length = 5 ∧ ∀ x ∈ list.listings, ∃ m, list.Shows x.path m := by
  have heval : ((sociable.run befriending).toOption.any (contactsWith fun _ s =>
      decide ((∀ n ∈ ([2, 1, 2] : List Nat), s.tables.contact.Allots n) ∧
        (¬ ∀ n ∈ ([2, 1, 0] : List Nat), s.tables.contact.Allots n) ∧
        (∀ e ∈ s.list.announced, e.2.handle.number < Value.wordLimit) ∧
        s.list.announced.length = 5))) = true := by
    decide +kernel
  obtain ⟨c, hrun, hc⟩ := Except.eq_ok_of_any heval
  obtain ⟨server, list, data, hm, hs⟩ := of_contactsWith hc
  obtain ⟨hboth, hzero, hwords, hlength⟩ := of_decide_eq_true hs
  obtain ⟨hchanges, ⟨-, hlistings⟩, hshows, -⟩ := run_agrees_with_legacy _ _ initial_sociable
    (fun target t ht => by cases target <;> cases ht <;> rfl) _ hrun hm
  have hlisted := hlistings hwords
  refine ⟨c, server, list, data, hrun, hm, fun path message => ?_, fun path => ?_, ?_, ?_⟩
  · have hsame : Handle.numbered [2, 1, 2] = Handle.numbered [1, 2] := by decide
    exact hsame ▸ ((hchanges path [2, 1, 2] message).1 hboth).1
  · obtain ⟨e, hkind, -, hremove⟩ := (hchanges path [2, 1, 0] "").2 hzero
    exact ⟨e, hkind, hremove⟩
  · rw [hlisted, List.length_map]
    exact hlength
  · intro x hx
    rw [hlisted] at hx
    obtain ⟨e, he, rfl⟩ := List.mem_map.mp hx
    exact ⟨_, hshows e he⟩

end Connection

end Telepathy

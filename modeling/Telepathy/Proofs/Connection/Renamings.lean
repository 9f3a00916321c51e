import Telepathy.Proofs.Connection.Announcements
import Telepathy.Proofs.Connection.Attempts
import Telepathy.Proofs.Connection.Ownership
import Telepathy.Proofs.Connection.Waiting
import Telepathy.Proofs.ContactList.Moving

set_option autoImplicit false

/-!
# What clients hear of a group that is renamed

Once clients know of all channels of a contact list, no request waits for one. So nothing that
happens to the contact list answers anybody, it never ends in a fault, and the signals are those of
its effects, one after the other. Of a renaming they tell that the members moved to the new group,
each of them once, and nothing else.
-/

namespace Telepathy.Connection

variable {σ ρ : Type} {c c₁ : Connection σ ρ}

/-! ## Effects that answer nobody -/

theorem signalsIn_settle_of_idle {l : RequestLedger} {home : ObjectPath} {r : Report}
    {s : Settlement} (hidle : r.tokens = []) (h : l.settle home r = .ok s) :
    signalsIn s.events = (Effect.report r).news home := by
  cases r with
  | newChannels batch =>
    cases batch with
    | nil =>
      cases h
      rfl
    | cons entry batch =>
      have hnobody : (entry :: batch).flatMap (·.2) = [] := hidle
      rw [RequestLedger.settle_newChannels_eq_ok home (List.cons_ne_nil _ _) (by rw [hnobody]; simp)
        (by rw [hnobody]; simp)] at h
      cases h
      rw [RequestLedger.signalsIn_announce, List.map_map, List.map_map]
      have hnone : ∀ e ∈ entry :: batch, l.waiting e.2 = [] := fun e he => by
        rw [List.flatMap_eq_nil_iff.mp hnobody e he]
        rfl
      refine congrArg _ (List.map_congr_left fun e he => ?_)
      simp only [Function.comp_apply, hnone e he]
      rfl
  | alreadySatisfied token channel => cases hidle
  | failed token e => cases hidle
  | closed path =>
    cases h
    rfl

theorem signals_perform_of_idle {seat : Nat} {e : Effect} (hidle : e.tokens = [])
    (h : c.perform seat e = .ok c₁) : c₁.signals = c.signals ++ e.news c.names.path := by
  cases e with
  | report r =>
    obtain ⟨s, hs, rfl⟩ := settle_cases (Except.mapError_eq_ok.mp h)
    rw [signals_record, signalsIn_settle_of_idle hidle hs]
    rfl
  | signal path s =>
    cases h
    exact signals_record c _
  | called call =>
    cases h
    exact signals_record c _

theorem signals_performAll_of_idle {seat : Nat} {effects : List Effect}
    (hidle : reportedTokens effects = []) (h : effects.foldlM (perform seat) c = .ok c₁) :
    c₁.signals = c.signals ++ effects.flatMap (Effect.news c.names.path) := by
  induction effects generalizing c with
  | nil =>
    cases h
    exact (List.append_nil _).symm
  | cons e effects ih =>
    obtain ⟨hfirst, hrest⟩ := List.append_eq_nil_iff.mp hidle
    obtain ⟨c', hperform, h⟩ := Except.bind_eq_ok.mp (by rwa [List.foldlM_cons] at h)
    have hnames : c'.names = c.names := by rw [(served_perform hperform).frame]
    rw [ih hrest h, signals_perform_of_idle hfirst hperform, hnames, List.append_assoc]
    rfl

section Idle

variable {seat : Nat} {server : ContactServer ρ} {list : ContactList} {data : ρ}
  (hm : c.managers[seat]? = some (.contacts server list data))
  (htold : list.Told fun _ => True)

include hm htold

/-- What happens to a contact list for which nobody waits comes to its end. -/
theorem step_contacts_of_told {named : ContactOperation (List ContactName)}
    {op : ContactOperation (SortedSet Handle)}
    (hop : (named.resolve c.tables.contact).1 = .ok op)
    {outcome : Except Error Unit × ContactScene ρ}
    (hperform :
      (ContactScene.mk list data (c.naming named).tables []).perform server op = outcome) :
    ∃ c', c.step (.contacts seat named) = .ok (following .error (outcome.1, c')) ∧
      c'.managers = c.managers.set seat (.contacts server outcome.2.list outcome.2.server) ∧
      c'.signals = c.signals ++ outcome.2.effects.flatMap (Effect.news c.names.path) := by
  have hidle : reportedTokens outcome.2.effects = [] := by
    rw [← hperform]
    exact ContactScene.reportedTokens_perform rfl htold op
  have hnone : ∀ token, token ∉ reportedTokens outcome.2.effects := fun token => by
    rw [hidle]
    exact List.not_mem_nil
  obtain ⟨c', hturn⟩ := (c.naming named).takeTurn_isOk seat (Manager.close server outcome.2)
    (hidle ▸ List.nodup_nil) (fun token h => absurd h (hnone token))
    fun token h => absurd (reported_of_reused h) (hnone token)
  refine ⟨c', ?_, (takeTurn_eq_ok hturn).2.1, ?_⟩
  · rw [step_contacts hm hop hperform, hturn]
    rfl
  · have hsignals := signals_performAll_of_idle hidle hturn
    exact hsignals

end Idle

/-- The members of a group of the contact list at a seat moved to another group, and clients heard
of that and of nothing else. -/
def MovesGroup (seat : Nat) (server : ContactServer ρ) (list : ContactList) (old target : String)
    (c c' : Connection σ ρ) : Prop :=
  ∃ list' data' news, c'.managers = c.managers.set seat (.contacts server list' data') ∧
    c'.signals = c.signals ++ news ∧ list.Moved c.names.path old target list' news

/-- What a contact list does in a call to move a group is what the connection does. -/
theorem movesGroup_of_moved {seat : Nat} {server : ContactServer ρ} {list : ContactList}
    {old target : String} {s s' : ContactScene ρ} (hs : s.effects = [])
    (hmoved : ∃ effects, s'.effects = s.effects ++ effects ∧
      list.Moved c.names.path old target s'.list (effects.flatMap (Effect.news c.names.path)))
    (hmanagers : c₁.managers = c.managers.set seat (.contacts server s'.list s'.server))
    (hsignals : c₁.signals = c.signals ++ s'.effects.flatMap (Effect.news c.names.path)) :
    c.MovesGroup seat server list old target c₁ := by
  obtain ⟨effects, heffects, hmoved⟩ := hmoved
  rw [hs, List.nil_append] at heffects
  exact ⟨_, _, _, hmanagers, heffects ▸ hsignals, hmoved⟩

/-- A renaming to which there is an objection changes nothing. -/
theorem step_renameGroup_refused {seat : Nat} {server : ContactServer ρ} {list : ContactList}
    {data : ρ} (hm : c.managers[seat]? = some (.contacts server list data)) {old new : String}
    (hobjection : list.capabilities.groups.isEditable = false ∨
      server.normaliseGroup old = none ∨ server.normaliseGroup new = none ∨
      (∃ o, server.normaliseGroup old = some o ∧ list.group? o = none) ∨
      ∃ n, server.normaliseGroup new = some n ∧ list.HasChannel (.group n)) :
    ∃ e, c.step (.contacts seat (.renameGroup old new)) = .ok (.error (.error e), c) := by
  obtain ⟨r, hr⟩ := ContactScene.checkRenaming_isError hobjection
  have hrefused : (ContactScene.mk list data c.tables []).perform server
      (.renameGroup old new) = (.error r.toError, ⟨list, data, c.tables, []⟩) := by
    simp only [ContactScene.perform, ContactScene.renameGroup, hr]
    rfl
  exact ⟨_, step_of_refused hm rfl hrefused⟩

section Moves

variable {seat : Nat} {server : ContactServer ρ} {list : ContactList} {data : ρ}
  (hm : c.managers[seat]? = some (.contacts server list data)) (hreceived : list.roster = .received)
  (htold : list.Told fun _ => True) (htidy : list.Tidy server) {old new o n : String}
  (hold : server.normaliseGroup old = some o) (hnew : server.normaliseGroup new = some n)
  (hne : n ≠ o) (hgroup : list.HasChannel (.group o)) (hgives : c.tables.Gives .group n)

include hm hreceived htold htidy hold hnew hne hgroup hgives

theorem step_groupRenamed_moves :
    ∃ c', c.step (.contacts seat (.groupRenamed old new)) = .ok (.ok .nothing, c') ∧
      c.MovesGroup seat server list o n c' := by
  obtain ⟨c', hstep, hmanagers, hsignals⟩ := step_contacts_of_told hm htold
    (rfl : ((ContactOperation.groupRenamed old new).resolve c.tables.contact).1 = .ok _) rfl
  let s : ContactScene ρ := ⟨list, data, c.tables, []⟩
  have hmoved := ContactScene.moved_groupRenamed (s := s) c.names.path hreceived htold htidy hold
    hnew hne hgroup hgives
  exact ⟨c', hstep, movesGroup_of_moved rfl hmoved hmanagers hsignals⟩

theorem step_renameGroup_moves (hidempotent : ∀ name canonical,
    server.normaliseGroup name = some canonical →
      server.normaliseGroup canonical = some canonical) :
    ∃ out, c.step (.contacts seat (.renameGroup old new)) = .ok out ∧
      (out.1.isOk → list.group? n = none ∧ c.MovesGroup seat server list o n out.2) := by
  let s : ContactScene ρ := ⟨list, data, c.tables, []⟩
  cases hrename : s.renameGroup server old new with
  | mk result s' =>
    have hperform : s.perform server (.renameGroup old new) =
        ContactScene.concluded (result, s') :=
      congrArg ContactScene.concluded hrename
    obtain ⟨c', hstep, hmanagers, hsignals⟩ := step_contacts_of_told hm htold
      (rfl : ((ContactOperation.renameGroup old new).resolve c.tables.contact).1 = .ok _) hperform
    refine ⟨_, hstep, fun hok => ?_⟩
    cases result with
    | error r => cases hok
    | ok =>
      obtain ⟨hfree, hmoved⟩ := ContactScene.moved_renameGroup c.names.path hreceived htold htidy
        hold hnew hne hgroup hgives hidempotent hrename
      exact ⟨hfree, movesGroup_of_moved rfl hmoved hmanagers hsignals⟩

end Moves

/-- In every run, as soon as clients know of all channels of a contact list whose roster is there,
the members of a group that is renamed move to the new group, each of them once, whether the server
says so or a client's renaming succeeds, and in the latter case the new group is new. Clients hear
first of the new group, if it is new, then of the members who come, then of those who leave, and
then that the old group is gone. A renaming that is refused beforehand changes nothing, and neither
does one that the server could do but fails. -/
theorem run_renames_groups (backend : Backend) (config : Config) (tables : HandleTables)
    (plans : List (ManagerPlan σ ρ)) {ops : List (Operation σ ρ)}
    (hrun : (new backend config tables plans).run ops = .ok c) {seat : Nat}
    {server : ContactServer ρ} {list : ContactList} {data : ρ}
    (hm : c.managers[seat]? = some (.contacts server list data))
    (hidempotent : ∀ name canonical, server.normaliseGroup name = some canonical →
      server.normaliseGroup canonical = some canonical) (old new : String) :
    (∀ o n, list.roster = .received →
      (∀ t channel, list.channels.get? t = some channel → channel.announced = true) →
      (old = o ∨ server.normaliseGroup old = some o) → list.HasChannel (.group o) →
      server.normaliseGroup new = some n → n ≠ o → c.tables.Gives .group n →
        (∃ c', c.step (.contacts seat (.groupRenamed old new)) = .ok (.ok .nothing, c') ∧
          c.MovesGroup seat server list o n c') ∧
        ∃ out, c.step (.contacts seat (.renameGroup old new)) = .ok out ∧
          (out.1.isOk → list.group? n = none ∧ c.MovesGroup seat server list o n out.2)) ∧
    ((list.capabilities.groups.isEditable = false ∨ server.normaliseGroup old = none ∨
        server.normaliseGroup new = none ∨
        (∃ o, server.normaliseGroup old = some o ∧ list.group? o = none) ∨
        ∃ n, server.normaliseGroup new = some n ∧ list.HasChannel (.group n)) →
      ∃ e, c.step (.contacts seat (.renameGroup old new)) = .ok (.error (.error e), c)) ∧
    ∀ out r, list.capabilities.groups = .editable .native →
      c.step (.contacts seat (.renameGroup old new)) = .ok out → out.1 = .error r →
        c.Spared seat server list data r out.2 ∧ out.2.signals = c.signals := by
  have htidy : list.Tidy server := run_keepsTidy _ _ _ _ hrun seat _ hm
  refine ⟨fun o n hreceived hannounced hold hgroup hnew hne hgives => ?_, fun hobjection => ?_,
    fun out r hnative hstep hr => ?_⟩
  · have hsettled : list.Settled fun _ => False :=
      (promptAt_new backend config tables plans seat).run (allAwait_new _ _ _ _)
        (fun _ hk => hk.elim) hrun _ hm hreceived
    have htold : list.Told fun _ => True := fun t channel hc _ =>
      ⟨hannounced t channel hc, hsettled.prompt t channel hc (hannounced t channel hc)⟩
    have hcanonical : server.normaliseGroup old = some o := by
      obtain rfl | hold := hold
      · obtain ⟨channel, hc⟩ := ContactList.hasChannel_iff.mp hgroup
        obtain ⟨given, hgiven⟩ := htidy.spelled _ channel hc
        exact hidempotent _ _ hgiven
      · exact hold
    exact ⟨step_groupRenamed_moves hm hreceived htold htidy hcanonical hnew hne hgroup hgives,
      step_renameGroup_moves hm hreceived htold htidy hcanonical hnew hne hgroup hgives
        hidempotent⟩
  · exact step_renameGroup_refused hm hobjection
  · have hattempts : ∀ op : ContactOperation (SortedSet Handle),
        ((ContactOperation.renameGroup old new).resolve c.tables.contact).1 = .ok op →
          (ContactScene.mk list data c.tables []).Attempts server op := by
      rintro op ⟨⟩
      exact ⟨_, ContactScene.attempted_renameGroup (by simp [hnative]) old new, rfl⟩
    obtain ⟨r', hr', hspared⟩ | ⟨op, s', -, hok, -⟩ := step_attempt hm hattempts hstep
    · cases hr.symm.trans hr'
      exact ⟨hspared, (hspared.unheard hm).1⟩
    · cases hr.symm.trans hok

/-- The roster arrives, a group comes into being, and Alice is put into it. -/
def aliceBefriended : List (Operation Unit MemoryRoster) :=
  [.contacts 0 .received, .contacts 0 (.groupsCreated ["friends"]),
    .contacts 0 (.groupsChanged [.id "alice"] ["friends"] [])]

/-- A client renames the group on a server that cannot: clients hear of the new group, of Alice in
it, of Alice no longer in the old group, and that this one is gone. Renaming it to its own name is
refused. -/
theorem aliceBefriended_renamed :
    let start := listing (.editable .emulated)
    ∃ c server list data out e, start.run aliceBefriended = .ok c ∧
      c.managers[0]? = some (.contacts server list data) ∧
      c.step (.contacts 0 (.renameGroup "friends" " pals ")) = .ok out ∧
      c.MovesGroup 0 server list "friends" "pals" out.2 ∧
      (out.2.signals.drop c.signals.length).map (·.2.name) =
        ["NewChannels", "NewChannel", "MembersChanged", "MembersChanged", "Closed",
          "ChannelClosed"] ∧
      c.step (.contacts 0 (.renameGroup "friends" "friends")) = .ok (.error (.error e), c) := by
  intro start
  have heval : ((start.run aliceBefriended).toOption.any fun c =>
      c.contactsWith (fun _ s => decide (s.list.roster = .received ∧
        s.list.channels.toList.all (·.2.announced) = true ∧
        s.list.channels.contains (.group "friends") = true)) &&
        decide (c.tables.Gives .group "pals") &&
        ((c.step (.contacts 0 (.renameGroup "friends" " pals "))).toOption.any fun out =>
          out.1.isOk && decide ((out.2.signals.drop c.signals.length).map (·.2.name) =
            ["NewChannels", "NewChannel", "MembersChanged", "MembersChanged", "Closed",
              "ChannelClosed"]))) = true := by
    decide +kernel
  obtain ⟨c, hrun, hc⟩ := Except.eq_ok_of_any heval
  rw [Bool.and_eq_true, Bool.and_eq_true] at hc
  obtain ⟨⟨hloaded, hgives⟩, hrenamed⟩ := hc
  obtain ⟨server, list, data, hm, hlist⟩ := of_contactsWith hloaded
  obtain ⟨hreceived, hannounced, hgroup⟩ := of_decide_eq_true hlist
  obtain ⟨out, hstep, hout⟩ := Except.eq_ok_of_any hrenamed
  obtain ⟨hok, hnames⟩ := Bool.and_eq_true_iff.mp hout
  obtain ⟨hidempotent, hfriends, hpals⟩ := run_keepsServers
    (P := fun server : ContactServer MemoryRoster =>
      (∀ name canonical, server.normaliseGroup name = some canonical →
        server.normaliseGroup canonical = some canonical) ∧
      server.normaliseGroup "friends" = some "friends" ∧
      server.normaliseGroup " pals " = some "pals")
    (fun server data hplan => by
      cases List.mem_singleton.mp hplan
      exact ⟨fun _ _ => MemoryRoster.idempotent_normaliseGroup _ _ _, by decide +kernel,
        by decide +kernel⟩) hrun 0 _ hm
  have hknown : ∀ t channel, list.channels.get? t = some channel → channel.announced = true :=
    fun t channel hc => List.all_eq_true.mp hannounced _ (SortedMap.get?_eq_some_iff.mp hc)
  obtain ⟨hmoves, -⟩ := run_renames_groups _ _ _ _ hrun hm hidempotent "friends" " pals "
  obtain ⟨-, out', hstep', hsuccess⟩ := hmoves "friends" "pals" hreceived hknown (.inl rfl) hgroup
    hpals (by decide) (of_decide_eq_true hgives)
  cases hstep.symm.trans hstep'
  obtain ⟨-, hrefused, -⟩ := run_renames_groups _ _ _ _ hrun hm hidempotent "friends" "friends"
  obtain ⟨e, he⟩ := hrefused (.inr (.inr (.inr (.inr ⟨"friends", hfriends, hgroup⟩))))
  exact ⟨c, server, list, data, out, e, hrun, hm, hstep, (hsuccess hok).2,
    of_decide_eq_true hnames, he⟩

end Telepathy.Connection

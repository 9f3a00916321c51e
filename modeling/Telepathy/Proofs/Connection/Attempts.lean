import Telepathy.Proofs.Connection.RosterArrival
import Telepathy.Proofs.ContactList.Attempts

set_option autoImplicit false

/-!
# Attempts on a connection

Between operations the groups of every contact list are in order. So a client's change to a contact
list that does not succeed leaves the connection as it is, but for handles of the contacts that the
client names, and for what the server that was asked made of its own data.
-/

namespace Telepathy

variable {σ ρ : Type}

namespace Connection

variable {c c₁ : Connection σ ρ}

/-- In every run, the groups of all contact lists are in order. -/
theorem run_keepsTidy (backend : Backend) (config : Config) (tables : HandleTables)
    (plans : List (ManagerPlan σ ρ)) {ops : List (Operation σ ρ)}
    (hrun : (new backend config tables plans).run ops = .ok c) :
    AllManagers (Manager.OfLists fun server list => list.Tidy server) c :=
  run_keepsLists (Manager.lasting_ofLists (fun _ _ => ContactScene.tidy_offer)
    (fun _ _ => ContactScene.tidy_perform) fun _ s _ => s.tidy_disconnect)
    (fun _ _ _ hnone => ContactScene.tidy_openLists hnone) hrun

/-! ## Calls to servers -/

/-- If a contact does not get a handle, nothing happens. -/
theorem step_contacts_of_unnamed {seat : Nat} {server : ContactServer ρ} {list : ContactList}
    {data : ρ} (hm : c.managers[seat]? = some (.contacts server list data))
    {named : ContactOperation (List ContactName)} {e : NameRefusal}
    (hop : (named.resolve c.tables.contact).1 = .error e) :
    c.step (.contacts seat named) = .ok (.error (.name e), c.naming named) := by
  simp only [step, performContacts, contactListAt_eq_some hm, hop]
  rfl

/-- All calls to contact servers so far, with the seats of those who made them. -/
def serverCalls (c : Connection σ ρ) : List (Nat × ServerCall) :=
  c.log.filterMap fun e =>
    match e with
    | .called seat call => some (seat, call)
    | _ => none

theorem serverCalls_perform {seat : Nat} {e : Effect} (h : c.perform seat e = .ok c₁) :
    c₁.serverCalls = c.serverCalls ++ e.call?.toList.map (seat, ·) := by
  cases e with
  | report r =>
    obtain ⟨s, hs, rfl⟩ := settle_cases (Except.mapError_eq_ok.mp h)
    have hnone : s.events.filterMap (fun e : Event =>
        match e with
        | .called seat call => some (seat, call)
        | _ => none) = [] := by
      refine List.filterMap_eq_nil_iff.mpr fun e he => ?_
      obtain ⟨_, _, rfl, -⟩ | ⟨_, _, rfl, -⟩ := RequestLedger.mem_settle_events hs he <;> rfl
    rw [serverCalls, record, List.filterMap_append, hnone]
    rfl
  | signal path s =>
    cases h
    rw [serverCalls, record, List.filterMap_append]
    rfl
  | called call =>
    cases h
    rw [serverCalls, record, List.filterMap_append]
    rfl

theorem serverCalls_performAll {seat : Nat} {effects : List Effect}
    (h : effects.foldlM (perform seat) c = .ok c₁) :
    c₁.serverCalls = c.serverCalls ++ (effects.filterMap Effect.call?).map (seat, ·) := by
  induction effects generalizing c with
  | nil =>
    cases h
    exact (List.append_nil _).symm
  | cons e effects ih =>
    obtain ⟨c', hfirst, hrest⟩ := Except.bind_eq_ok.mp (by rwa [List.foldlM_cons] at h)
    rw [ih hrest, serverCalls_perform hfirst, List.append_assoc]
    cases hcall : e.call? with
    | none => rw [List.filterMap_cons_none hcall]; rfl
    | some call => rw [List.filterMap_cons_some hcall]; rfl

/-- The calls of a turn are those that the manager made. -/
theorem serverCalls_takeTurn {seat : Nat} {t : Turn σ ρ} (h : c.takeTurn seat t = .ok c₁) :
    c₁.serverCalls = c.serverCalls ++ (t.effects.filterMap Effect.call?).map (seat, ·) := by
  have hperformed := serverCalls_performAll h
  exact hperformed

/-! ## Attempts -/

/-- Nothing came of an attempt on a contact list: either nothing was done, or its server was asked
and refused, whose error this is. -/
inductive Spared (c : Connection σ ρ) (seat : Nat) (server : ContactServer ρ) (list : ContactList)
    (data : ρ) : Refusal → Connection σ ρ → Prop
  | unasked (r : Refusal) : Spared c seat server list data r c
  | refused (call : ServerCall) (e : Error) (data' : ρ)
      (h : call.answer.error? call.mutation = some e) :
      Spared c seat server list data (.error e)
        ({ c with
          managers := c.managers.set seat (.contacts server list data')
          tables := c.tables.exchangeContacts (server.holds data') (server.holds data) }.record
          [.called seat call])

theorem set_getElem? {seat : Nat} {m : Manager σ ρ} (hm : c.managers[seat]? = some m) :
    c.managers.set seat m = c.managers := by
  obtain ⟨hseat, rfl⟩ := List.getElem?_eq_some_iff.mp hm
  exact List.set_getElem_self hseat

/-- When nothing came of an attempt, nobody was told anything or answered, and the contact list is
as it was. -/
theorem Spared.unheard {seat : Nat} {server : ContactServer ρ} {list : ContactList} {data : ρ}
    {r : Refusal} (h : c.Spared seat server list data r c₁)
    (hm : c.managers[seat]? = some (.contacts server list data)) :
    c₁.signals = c.signals ∧ c₁.answers = c.answers ∧ c₁.ledger = c.ledger ∧
      ∃ data', c₁.managers = c.managers.set seat (.contacts server list data') := by
  cases h with
  | unasked r => exact ⟨rfl, rfl, rfl, data, (set_getElem? hm).symm⟩
  | refused call e data' h =>
    refine ⟨?_, ?_, rfl, data', rfl⟩
    all_goals exact List.filterMap_append.trans (List.append_nil _)

section Attempting

variable {seat : Nat} {server : ContactServer ρ} {list : ContactList} {data : ρ}
  {named : ContactOperation (List ContactName)} {op : ContactOperation (SortedSet Handle)}

/-- What is refused at once changes nothing. -/
theorem step_of_refused (hm : c.managers[seat]? = some (.contacts server list data))
    (hop : (named.resolve c.tables.contact).1 = .ok op) {e : Error}
    (hrefused : (ContactScene.mk list data (c.naming named).tables []).perform server op =
      (.error e, ⟨list, data, (c.naming named).tables, []⟩)) :
    c.step (.contacts seat named) = .ok (.error (.error e), c.naming named) := by
  have hsame : { c.naming named with
      managers := c.managers.set seat (.contacts server list data) } = c.naming named := by
    rw [set_getElem? hm]
    rfl
  refine (step_contacts hm hop hrefused).trans ?_
  exact congrArg (fun c' => (.ok (.error (.error e), c') : Except Crash (StepOutcome σ ρ))) hsame

/-- An attempt that fails is over without a fault, and nothing has come of it. -/
theorem step_of_failed (hm : c.managers[seat]? = some (.contacts server list data))
    (hop : (named.resolve c.tables.contact).1 = .ok op)
    (hattempts :
      (ContactScene.mk list data (c.naming named).tables []).Attempts server op) {e : Error}
    (hfailed :
      ((ContactScene.mk list data (c.naming named).tables []).perform server op).1 = .error e) :
    ∃ c', c.step (.contacts seat named) = .ok (.error (.error e), c') ∧
      (c.naming named).Spared seat server list data (.error e) c' := by
  obtain ⟨outcome, hattempted, hperform⟩ := hattempts
  rw [hperform] at hfailed
  cases hattempted with
  | idle => cases hfailed
  | done => cases hfailed
  | refused r =>
    cases hfailed
    exact ⟨_, step_of_refused hm hop hperform, .unasked _⟩
  | failed m e' h =>
    cases hfailed
    exact ⟨_, step_contacts hm hop hperform, .refused ⟨m, _, _⟩ _ _ h⟩

/-- When an attempt fails nothing has come of it, and when it succeeds the server has carried out
whatever it was asked. -/
theorem step_attempt (hm : c.managers[seat]? = some (.contacts server list data))
    (hattempts : ∀ op, (named.resolve c.tables.contact).1 = .ok op →
      (ContactScene.mk list data (c.naming named).tables []).Attempts server op)
    {out : StepOutcome σ ρ} (hstep : c.step (.contacts seat named) = .ok out) :
    (∃ r, out.1 = .error r ∧ (c.naming named).Spared seat server list data r out.2) ∨
      ∃ op s', (named.resolve c.tables.contact).1 = .ok op ∧ out.1 = .ok .nothing ∧
        (ContactScene.mk list data (c.naming named).tables []).perform server op = (.ok (), s') ∧
        out.2.managers = c.managers.set seat (.contacts server s'.list s'.server) ∧
        ∃ calls : List ServerCall, out.2.serverCalls = c.serverCalls ++ calls.map (seat, ·) ∧
          ∀ call ∈ calls, call.answer = .done := by
  cases hop : (named.resolve c.tables.contact).1 with
  | error e =>
    rw [step_contacts_of_unnamed hm hop] at hstep
    cases hstep
    exact .inl ⟨_, rfl, .unasked _⟩
  | ok op =>
    obtain ⟨outcome, hattempted, hperform⟩ := hattempts op hop
    cases hresult : outcome.1 with
    | error r =>
      obtain ⟨c', hstep', hspared⟩ := step_of_failed (e := r.toError) hm hop (hattempts op hop)
        (by rw [hperform, ContactScene.concluded, hresult]; rfl)
      cases hstep.symm.trans hstep'
      exact .inl ⟨_, rfl, hspared⟩
    | ok =>
      have hdone : (ContactScene.concluded outcome).1 = .ok () := by
        rw [ContactScene.concluded, hresult]
        rfl
      rw [step_contacts hm hop hperform, hdone] at hstep
      obtain ⟨c', hturn, rfl⟩ := Except.map_eq_ok.mp hstep
      refine .inr ⟨op, outcome.2, rfl, rfl, hperform.trans (Prod.ext hdone rfl), ?_, ?_⟩
      · exact (takeTurn_eq_ok hturn).2.1
      · obtain ⟨calls, hcalls, hcarried⟩ := hattempted.answers_done hresult
        have hmade : c'.serverCalls = c.serverCalls ++ outcome.2.calls.map (seat, ·) :=
          serverCalls_takeTurn hturn
        exact ⟨calls, hmade.trans (by rw [hcalls]; rfl), hcarried⟩

end Attempting

/-- In every run, an attempt of a client on a contact list that fails is over without a fault, and
nothing has come of it: nobody is told anything or answered, and the channels stay as they are. If
the server was asked, it refused, and its error is the one that the client sees. A channel that is
closed is that of a group in which nobody is anywhere, and all others stay as they are. -/
theorem run_spares_contactLists (backend : Backend) (config : Config) (tables : HandleTables)
    (plans : List (ManagerPlan σ ρ)) {ops : List (Operation σ ρ)}
    (hrun : (new backend config tables plans).run ops = .ok c) {seat : Nat}
    {server : ContactServer ρ} {list : ContactList} {data : ρ}
    (hm : c.managers[seat]? = some (.contacts server list data))
    (hidempotent : ∀ name canonical, server.normaliseGroup name = some canonical →
      server.normaliseGroup canonical = some canonical)
    {named : ContactOperation (List ContactName)} (hattempt : named.IsAttempt) :
    (∀ op e, (named.resolve c.tables.contact).1 = .ok op →
      ((ContactScene.mk list data (c.naming named).tables []).perform server op).1 = .error e →
        ∃ c', c.step (.contacts seat named) = .ok (.error (.error e), c')) ∧
    ∀ out, c.step (.contacts seat named) = .ok out →
      (∀ r, out.1 = .error r → (c.naming named).Spared seat server list data r out.2 ∧
        out.2.signals = c.signals ∧ out.2.answers = c.answers ∧ out.2.ledger = c.ledger) ∧
      ∀ answer, out.1 = .ok answer →
        (∃ calls : List ServerCall, out.2.serverCalls = c.serverCalls ++ calls.map (seat, ·) ∧
          ∀ call ∈ calls, call.answer = .done) ∧
        ∀ path, named = .closeChannel path →
          ∃ name channel data', list.at? path = some (.group name, channel) ∧
            (∀ p, channel.membership.inPlace p = .empty) ∧
            out.2.managers =
              c.managers.set seat (.contacts server (list.remove (.group name)) data') := by
  have htidy : list.Tidy server := run_keepsTidy _ _ _ _ hrun seat _ hm
  have hattempts : ∀ op, (named.resolve c.tables.contact).1 = .ok op →
      (ContactScene.mk list data (c.naming named).tables []).Attempts server op :=
    fun op hop => ContactScene.attempts_of_isAttempt _ (hattempt.resolve hop)
  refine ⟨fun op e hop hfailed => ?_, fun out hstep => ?_⟩
  · obtain ⟨c', hstep, -⟩ := step_of_failed hm hop (hattempts op hop) hfailed
    exact ⟨c', hstep⟩
  obtain ⟨r, hr, hspared⟩ | ⟨op, s', hop, hout, hperform, hmanager, hcalls⟩ :=
    step_attempt hm hattempts hstep
  · obtain ⟨hsignals, hanswers, hledger, -⟩ := hspared.unheard hm
    rw [hr]
    refine ⟨fun r' hr' => ?_, nofun⟩
    cases hr'
    exact ⟨hspared, hsignals, hanswers, hledger⟩
  · rw [hout]
    refine ⟨nofun, fun _ _ => ⟨hcalls, ?_⟩⟩
    rintro path rfl
    cases hop
    have hclosed : (ContactScene.mk list data c.tables []).closeChannel server path =
        (.ok (), s') := by
      obtain ⟨hresult, hscene⟩ := Prod.mk.inj hperform
      exact Prod.ext (Except.mapError_eq_ok.mp hresult) hscene
    obtain ⟨name, channel, hat, hempty, hlist⟩ :=
      ContactScene.closeChannel_eq_ok hidempotent htidy hclosed
    refine ⟨name, channel, s'.server, hat, Membership.inPlace_of_isEmpty hempty, ?_⟩
    rw [hmanager, hlist]

/-- The roster arrives, a group comes into being, and from then on the server lets nobody into
groups. -/
def exclusiveGroup : List (Operation Unit MemoryRoster) :=
  [.contacts 0 .received, .contacts 0 (.groupsCreated ["friends"]),
    .changeServer 0 [] fun _ r => { r with refused := ["add-to-group:"] }]

/-- A client who adds Alice to the group gets the server's error, and no client is told anything;
then the group is still empty, so it can be closed, and it is the one channel that goes away. -/
theorem exclusiveGroup_spared :
    let start := listing (.editable .native)
    let path := (start.names.path.child "ContactList").child "Group1"
    ∃ c server list data c' out, start.run exclusiveGroup = .ok c ∧
      c.managers[0]? = some (.contacts server list data) ∧
      c.step (.contacts 0 (.addMembers path [.id "alice"] "")) =
        .ok (.error (.error ⟨.permissionDenied, "server refused"⟩), c') ∧
      c'.signals = c.signals ∧
      (∃ data', c'.managers = c.managers.set 0 (.contacts server list data')) ∧
      c.step (.contacts 0 (.closeChannel path)) = .ok out ∧
      ∃ data', out.2.managers =
        c.managers.set 0 (.contacts server (list.remove (.group "friends")) data') := by
  intro start path
  have heval : ((start.run exclusiveGroup).toOption.any fun c =>
      (c.managers[0]?.any fun m =>
          match m with
          | .contacts _ list _ =>
            decide ((list.at? path).map Prod.fst = some (.group "friends"))
          | .custom _ _ => false) &&
        ((c.step (.contacts 0 (.addMembers path [.id "alice"] ""))).toOption.any fun out =>
          match out.1 with
          | .error (.error e) => decide (e = ⟨.permissionDenied, "server refused"⟩)
          | _ => false) &&
        ((c.step (.contacts 0 (.closeChannel path))).toOption.any fun out => out.1.isOk)) =
      true := by
    decide +kernel
  obtain ⟨c, hrun, hc⟩ := Except.eq_ok_of_any heval
  rw [Bool.and_eq_true, Bool.and_eq_true] at hc
  obtain ⟨⟨hlist, hadded⟩, hclosed⟩ := hc
  obtain ⟨⟨added, c'⟩, hadd, hfailed⟩ := Except.eq_ok_of_any hadded
  obtain ⟨⟨closed, c''⟩, hclose, hdone⟩ := Except.eq_ok_of_any hclosed
  obtain ⟨m, hm, hlist⟩ := (Option.any_eq_true _ _).mp hlist
  cases m with
  | custom b state => cases hlist
  | contacts server list data =>
    have hserver := run_keepsServers (P := fun server : ContactServer MemoryRoster =>
        ∀ name canonical, server.normaliseGroup name = some canonical →
          server.normaliseGroup canonical = some canonical)
      (fun server data hplan => by
        cases List.mem_singleton.mp hplan
        exact fun _ _ => MemoryRoster.idempotent_normaliseGroup _ _ _) hrun 0 _ hm
    have hadding : (ContactOperation.addMembers path [ContactName.id "alice"] "").IsAttempt :=
      trivial
    have hclosing : (ContactOperation.closeChannel path :
      ContactOperation (List ContactName)).IsAttempt := trivial
    obtain ⟨-, hadds⟩ := run_spares_contactLists _ _ _ _ hrun hm hserver hadding
    obtain ⟨-, hcloses⟩ := run_spares_contactLists _ _ _ _ hrun hm hserver hclosing
    cases closed with
    | error r => cases hdone
    | ok answer =>
      obtain ⟨-, hremoved⟩ := (hcloses _ hclose).2 answer rfl
      obtain ⟨name, channel, data', hat, -, hmanagers⟩ := hremoved path rfl
      have hname : (list.at? path).map Prod.fst = some (.group "friends") :=
        of_decide_eq_true hlist
      rw [hat] at hname
      cases hname
      split at hfailed
      case h_2 => cases hfailed
      case h_1 e hadded =>
        cases of_decide_eq_true hfailed
        cases hadded
        obtain ⟨hspared, hsignals, -⟩ := (hadds _ hadd).1 _ rfl
        obtain ⟨-, -, -, hlist⟩ := hspared.unheard hm
        exact ⟨c, server, list, data, c', _, hrun, hm, hadd, hsignals, hlist, hclose, data',
          hmanagers⟩

end Connection

end Telepathy

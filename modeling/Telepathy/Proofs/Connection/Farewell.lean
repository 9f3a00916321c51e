import Telepathy.Proofs.Connection.Lives
import Telepathy.Proofs.Connection.Queues
import Telepathy.Proofs.Connection.Replies
import Telepathy.Proofs.ContactList.Ending

set_option autoImplicit false

/-!
# How a connection takes its leave

Becoming disconnected is one sweep. The news goes out, the managers are told, every request that
waits is answered, what is known of people is forgotten, and the backend is called to shut down. If
the backend is done at once, the same step takes the connection off the bus, answers those who asked
to disconnect, and reclaims handles; otherwise this waits for the backend to say that it is done.
After that nothing comes back: in every state that follows, nothing is waiting, known or listed.
-/

namespace Telepathy

variable {σ ρ : Type}

/-! ## Managers -/

namespace Manager

/-- A manager that answers no requests when it is told that the connection is gone. -/
def Quiet : Manager σ ρ → Prop
  | custom b _ => ∀ state, reportedTokens (b.statusChanged state .disconnected).2 = []
  | contacts _ _ _ => True

theorem quiet_lasting : Manager.Lasting (σ := σ) (ρ := ρ) Quiet where
  offer m tables r h := by cases m <;> exact h
  statusChanged m tables status h := by cases m <;> exact h
  performContacts {m tables op out} hop _ := by
    cases m <;> cases hop
    trivial
  changeServer {m tables f t} ht _ := by
    cases m <;> cases ht
    trivial
  changeState {m tables f t} ht h := by
    cases m <;> cases ht
    exact h

/-- A contact list that was told that the connection is gone. -/
def Ended : Manager σ ρ → Prop
  | custom _ _ => True
  | contacts _ list _ => list.Ended

/-- What a contact list does when it is told that the connection is gone. -/
theorem statusChanged_gone (server : ContactServer ρ) (list : ContactList) (data : ρ)
    (tables : HandleTables) :
    let t := (contacts server list data : Manager σ ρ).statusChanged tables .disconnected
    t.manager.Ended ∧ t.effects = list.announced.map fun e => .signal e.2.path .closed := by
  obtain ⟨-, -, heffects⟩ := ContactScene.disconnect_eq ⟨list, data, tables, []⟩
  exact ⟨ContactScene.ended_disconnect ⟨list, data, tables, []⟩, heffects⟩

theorem ended_lasting : Manager.Lasting (σ := σ) (ρ := ρ) Ended where
  offer m tables r h := by
    cases m with
    | custom b state => trivial
    | contacts server list data =>
      show ((ContactScene.mk list data tables []).offer server r).2.list.Ended
      rw [ContactScene.offer_of_ended (s := ⟨list, data, tables, []⟩) h r]
      exact h
  statusChanged m tables status h := by
    cases m with
    | custom b state => trivial
    | contacts server list data =>
      unfold statusChanged
      dsimp only
      split
      · exact ContactScene.ended_disconnect _
      · exact h
  performContacts {m tables op out} hop h := by
    cases m with
    | custom b state => cases hop
    | contacts server list data =>
      cases hop
      show ((ContactScene.mk list data tables []).perform server op).2.list.Ended
      rw [ContactScene.perform_of_ended (s := ⟨list, data, tables, []⟩) h op]
      exact h
  changeServer {m tables f t} ht h := by
    cases m <;> cases ht
    exact h
  changeState {m tables f t} ht h := by
    cases m <;> cases ht
    exact h

end Manager

namespace Connection

variable {c c₁ : Connection σ ρ}

/-! ## Telling the managers -/

/-- The closing signals of a contact list go out as they are. -/
theorem performAll_signals {α : Type} (seat : Nat) (path : α → ObjectPath) (signal : α → Signal)
    (l : List α) (c : Connection σ ρ) :
    (l.map fun a => Effect.signal (path a) (signal a)).foldlM (perform seat) c =
      .ok (c.record (l.map fun a => .signal (path a) (signal a))) := by
  induction l generalizing c with
  | nil => exact congrArg Except.ok (by rw [Connection.record, List.map_nil, List.append_nil])
  | cons a l ih =>
    rw [List.map_cons, List.foldlM_cons]
    refine (ih _).trans (congrArg Except.ok ?_)
    simp only [Connection.record, List.map_cons, List.append_assoc, List.singleton_append]

/-- The turn of a manager that answers nobody touches no request. -/
theorem takeTurn_quiet {seat : Nat} {t : Turn σ ρ} (h : reportedTokens t.effects = []) :
    ∃ tables events, answeredCalls events = [] ∧ c.takeTurn seat t =
      .ok { c with
        managers := c.managers.set seat t.manager, tables, log := c.log ++ events } := by
  obtain ⟨c₁, hturn⟩ := c.takeTurn_isOk seat t (by rw [h]; exact .nil) (by simp [h])
    fun token ht => by simpa [h] using reported_of_reused ht
  have hserved := served_takeTurn hturn
  obtain ⟨hledger, hmanagers, -⟩ := takeTurn_eq_ok hturn
  rw [h, RequestLedger.without_nil] at hledger
  obtain ⟨events, hlog, -⟩ :=
    (stays_takeTurn (fun _ _ _ _ _ hpath => by cases hpath) hturn : c.Stays none c₁).events
  have hnobody : answeredCalls events = [] := by
    refine List.eq_nil_iff_forall_not_mem.mpr fun call hcall => ?_
    have htally := hserved.tally call
    have hpos := List.count_pos_iff.mpr hcall
    simp only [tally, hledger, hserved.disconnectCalls, hlog, answeredCalls_append,
      List.count_append] at htally
    omega
  refine ⟨c₁.tables, events, hnobody, ?_⟩
  rw [hturn, hserved.frame, hledger, hmanagers, hlog]

/-- A manager that is told that the connection is gone answers nobody. A contact list ends, and does
nothing but close the channels that clients know. -/
theorem takeTurn_gone {m : Manager σ ρ} (hquiet : m.Quiet) (seat : Nat) (tables : HandleTables) :
    (m.statusChanged tables .disconnected).manager.Ended ∧
      ∃ tables' events, answeredCalls events = [] ∧
        (∀ server list data, m = .contacts server list data →
          events = list.announced.map fun e => .signal e.2.path .closed) ∧
        c.takeTurn seat (m.statusChanged tables .disconnected) =
          .ok { c with
            managers := c.managers.set seat (m.statusChanged tables .disconnected).manager
            tables := tables', log := c.log ++ events } := by
  cases m with
  | custom b state =>
    obtain ⟨tables', events, hnobody, hturn⟩ :=
      takeTurn_quiet (c := c)
        (t := (Manager.custom b state).statusChanged tables .disconnected) (hquiet state)
    refine ⟨trivial, tables', events, hnobody, fun _ _ _ hm => ?_, hturn⟩
    cases hm
  | contacts server list data =>
    obtain ⟨hended, heffects⟩ := Manager.statusChanged_gone (σ := σ) server list data tables
    refine ⟨hended, ((Manager.contacts server list data : Manager σ ρ).statusChanged tables
      .disconnected).tables, list.announced.map fun e => .signal e.2.path .closed, ?_, ?_, ?_⟩
    · exact answeredCalls_eq_nil fun e he => by
        obtain ⟨channel, -, rfl⟩ := List.mem_map.mp he
        rfl
    · intro _ _ _ hm
      cases hm
      rfl
    · rw [takeTurn, heffects, performAll_signals]
      rfl

/-- What is known of the managers once those at some seats were told that the connection is gone. -/
structure Told (c : Connection σ ρ) (seats : List Nat) (managers : List (Manager σ ρ))
    (acts : Nat → List Event) : Prop where
  length : managers.length = c.managers.length
  ended : ∀ seat ∈ seats, ∀ m, managers[seat]? = some m → m.Ended
  others : ∀ seat, seat ∉ seats → managers[seat]? = c.managers[seat]?
  nobody : ∀ seat, answeredCalls (acts seat) = []
  closed : ∀ seat ∈ seats, ∀ server list data,
    c.managers[seat]? = some (.contacts server list data) →
      acts seat = list.announced.map fun e => .signal e.2.path .closed

/-- A manager at a seat is told: it ends if it is a contact list, and answers nobody. -/
theorem notifyAt_gone (hquiet : AllManagers Manager.Quiet c) {seat : Nat} (hseat : seat ∈ c.seats) :
    ∃ tables managers acts, c.Told [seat] managers acts ∧ c.notifyAt .disconnected seat =
      .ok { c with
        managers, tables, log := c.log ++ .notified seat .disconnected :: acts seat } := by
  obtain ⟨m, hm⟩ : ∃ m, c.managers[seat]? = some m :=
    ⟨_, List.getElem?_eq_getElem (List.mem_range.mp hseat)⟩
  obtain ⟨hended, tables, events, hnobody, hclosed, hturn⟩ :=
    takeTurn_gone (c := c.record [.notified seat .disconnected]) (hquiet seat m hm) seat c.tables
  refine ⟨tables, c.managers.set seat (m.statusChanged c.tables .disconnected).manager,
    fun _ => events, ⟨List.length_set, ?_, fun other hother => ?_, fun _ => hnobody, ?_⟩, ?_⟩
  · intro _ hmem m' hm'
    obtain rfl := List.mem_singleton.mp hmem
    rw [List.getElem?_set_self (List.mem_range.mp hseat)] at hm'
    cases hm'
    exact hended
  · exact List.getElem?_set_ne fun heq => hother (List.mem_singleton.mpr heq.symm)
  · intro _ hmem server list data hm'
    obtain rfl := List.mem_singleton.mp hmem
    rw [hm] at hm'
    cases hm'
    exact hclosed server list data rfl
  · unfold notifyAt
    rw [hm]
    refine hturn.trans (congrArg Except.ok ?_)
    simp only [Connection.record, List.append_assoc, List.singleton_append]

/-- All managers are told, each at its turn. -/
theorem notifyAll_gone (hquiet : AllManagers Manager.Quiet c) {seats : List Nat}
    (hdistinct : seats.Nodup) (hseats : ∀ seat ∈ seats, seat ∈ c.seats) :
    ∃ tables managers acts, c.Told seats managers acts ∧
      seats.foldlM (notifyAt .disconnected) c = .ok { c with
        managers, tables
        log := c.log ++ seats.flatMap fun seat => .notified seat .disconnected :: acts seat } := by
  induction seats generalizing c with
  | nil =>
    refine ⟨c.tables, c.managers, fun _ => [],
      ⟨rfl, by simp, fun _ _ => rfl, fun _ => rfl, by simp⟩,
      congrArg Except.ok ?_⟩
    rw [List.flatMap_nil, List.append_nil]
  | cons seat seats ih =>
    obtain ⟨hnew, hrest⟩ := List.nodup_cons.mp hdistinct
    obtain ⟨tables, managers, acts, htold, hfirst⟩ :=
      notifyAt_gone hquiet (hseats seat List.mem_cons_self)
    have hquiet' := (hquiet.notifyAt Manager.quiet_lasting .disconnected seat).of_ok hfirst
    obtain ⟨tables', managers', acts', htold', hlater⟩ := ih hquiet' hrest fun s hs => by
      rw [Connection.seats, htold.length]
      exact hseats s (.tail _ hs)
    -- What the first manager does is one thing, what the others do is another.
    refine ⟨tables', managers', fun s => if s = seat then acts seat else acts' s,
      ⟨htold'.length.trans htold.length, fun s hs m hm => ?_, fun s hs => ?_, fun s => ?_,
        fun s hs server list data hm => ?_⟩, ?_⟩
    · by_cases hin : s ∈ seats
      · exact htold'.ended s hin m hm
      · rw [htold'.others s hin] at hm
        have heq : s = seat := (List.mem_cons.mp hs).resolve_right hin
        exact htold.ended s (by rw [heq]; exact List.mem_singleton_self seat) m hm
    · rw [List.mem_cons, not_or] at hs
      rw [htold'.others s hs.2]
      exact htold.others s (by simpa using hs.1)
    · split
      · exact htold.nobody seat
      · exact htold'.nobody s
    · split
      case isTrue heq =>
        subst heq
        exact htold.closed s (List.mem_singleton_self s) server list data hm
      case isFalse hne =>
        have hin := (List.mem_cons.mp hs).resolve_left hne
        refine htold'.closed s hin server list data ?_
        rw [← hm]
        exact htold.others s (by simpa using hne)
    · have hacts : (seats.flatMap fun s => Event.notified s .disconnected ::
          if s = seat then acts seat else acts' s) =
          seats.flatMap fun s => .notified s .disconnected :: acts' s := by
        rw [List.flatMap_def, List.flatMap_def]
        refine congrArg List.flatten (List.map_congr_left fun s hs => ?_)
        rw [if_neg fun heq : s = seat => hnew (heq ▸ hs)]
      rw [List.foldlM_cons]
      refine Except.bind_eq_ok.mpr ⟨_, hfirst, hlater.trans (congrArg Except.ok ?_)⟩
      simp only [List.flatMap_cons, hacts, if_true, List.append_assoc]

/-! ## The end of the shutdown -/

/-- The events by which a connection leaves the bus. -/
def withdrawal (c : Connection σ ρ) : List Event :=
  if c.registered then [.objectWithdrawn c.names.path, .nameReleased c.names.busName] else []

theorem withdraw_eq (c : Connection σ ρ) :
    ∃ bus, bus.watched = c.bus.watched ∧
      c.withdraw = { c with registered := false, bus, log := c.log ++ c.withdrawal } := by
  unfold withdraw withdrawal
  cases hregistered : c.registered with
  | true => exact ⟨(c.bus.withdrawObject c.names.path).releaseName c.names.busName, rfl, rfl⟩
  | false =>
    refine ⟨c.bus, rfl, ?_⟩
    rw [if_neg Bool.false_ne_true, if_neg Bool.false_ne_true, List.append_nil, ← hregistered]

/-- The end of the shutdown comes once: the connection leaves the bus, all who asked to disconnect
are answered, and handles are reclaimed. -/
theorem finishShutdown_eq (hstatus : c.status = .disconnected) (hshut : c.shutDown = false) :
    ∃ bus, bus.watched = c.bus.watched ∧
      c.finishShutdown =
        { c with
          shutDown := true, registered := false, bus, disconnectCalls := []
          tables := c.tables.collect.2
          log := c.log ++
            (c.withdrawal ++ c.disconnectCalls.map (.answered · (.returned .done))) } := by
  obtain ⟨bus, hwatched, hwithdraw⟩ := withdraw_eq { c with shutDown := true }
  refine ⟨bus, hwatched, (if_pos ⟨hstatus, hshut⟩ : c.finishShutdown = _).trans ?_⟩
  rw [hwithdraw]
  simp only [answerDisconnects, collect, Connection.record, List.append_assoc]
  rfl

/-! ## Tearing down -/

/-- The handle tables once the requests and the local user let go of theirs. -/
def handlesLeft (c : Connection σ ρ) (tables : HandleTables) : HandleTables :=
  (tables.releaseAll c.ledger.holds).exchangeContacts [] c.self.toList

/-- What becoming disconnected means for the connection itself. -/
theorem tearDown_eq (hstatus : c.status = .disconnected) (hshut : c.shutDown = false) :
    ∃ bus, bus.watched = (c.interests.clients.foldl Bus.unwatch c.bus).watched ∧
      c.tearDown =
        { c with
          ledger := c.ledger.clear, self := none, interests := c.interests.clear.1, bus
          tables := if c.backend.defersShutdown then c.handlesLeft c.tables
            else (c.handlesLeft c.tables).collect.2
          shutDown := !c.backend.defersShutdown
          registered := c.registered && c.backend.defersShutdown
          disconnectCalls := if c.backend.defersShutdown then c.disconnectCalls else []
          log := c.log ++ (c.ledger.calls.map (.answered · (.failed leaving)) ++
            c.interests.clients.map .unwatched ++ .hook .shutDown ::
            if c.backend.defersShutdown then []
            else c.withdrawal ++ c.disconnectCalls.map (.answered · (.returned .done))) } := by
  have hcalled : c.failOutstanding.forgetSelf.forgetInterests.record [.hook .shutDown] =
      { c with
        ledger := c.ledger.clear, self := none, interests := c.interests.clear.1
        bus := c.interests.clients.foldl Bus.unwatch c.bus, tables := c.handlesLeft c.tables
        log := c.log ++ (c.ledger.calls.map (.answered · (.failed leaving)) ++
          c.interests.clients.map .unwatched ++ [.hook .shutDown]) } := by
    simp only [failOutstanding, forgetSelf, forgetInterests, InterestTable.clear, handlesLeft,
      Connection.record, List.append_assoc]
  unfold tearDown shutDownBackend
  rw [hcalled]
  cases hdefers : c.backend.defersShutdown with
  | true =>
    refine ⟨c.interests.clients.foldl Bus.unwatch c.bus, rfl, ?_⟩
    simp only [hdefers, hshut, if_true, Bool.not_true, Bool.and_true]
  | false =>
    obtain ⟨bus, hwatched, hfinish⟩ := finishShutdown_eq (c := { c with
      ledger := c.ledger.clear, self := none, interests := c.interests.clear.1
      bus := c.interests.clients.foldl Bus.unwatch c.bus, tables := c.handlesLeft c.tables
      log := c.log ++ (c.ledger.calls.map (.answered · (.failed leaving)) ++
        c.interests.clients.map .unwatched ++ [.hook .shutDown]) }) hstatus hshut
    refine ⟨bus, hwatched, (if_neg ?_ : _ = finishShutdown _).trans (hfinish.trans ?_)⟩
    · exact Bool.eq_false_iff.mp hdefers
    · simp only [Bool.false_eq_true, if_false, Bool.not_false, Bool.and_false, List.append_assoc,
        List.singleton_append]
      rfl

/-! ## Becoming disconnected -/

/-- What becoming disconnected does to a connection, event by event. -/
structure Farewell (c : Connection σ ρ) (reason : StatusReason) (c' : Connection σ ρ) : Prop where
  status : c'.status = .disconnected
  /-- The calls below are as many as there are requests without an answer. -/
  outstanding : c.ledger.calls.length = c.outstanding
  sweep : ∃ (told : Connection σ ρ) (acts : Nat → List Event),
    c.seats.foldlM (notifyAt .disconnected) (c.heralded .disconnected reason) = .ok told ∧
    (∀ seat, answeredCalls (acts seat) = []) ∧
    (∀ seat server list data, c.managers[seat]? = some (.contacts server list data) →
      acts seat = list.announced.map fun e => .signal e.2.path .closed) ∧
    c'.log = c.log ++
      (.signal c.names.path (.statusChanged .disconnected reason) ::
        (hookFor c.status .disconnected).toList.map .hook ++
        (c.seats.flatMap fun seat => .notified seat .disconnected :: acts seat) ++
        -- Parked requests are answered by ticket, then those in flight by token.
        (c.ledger.parked.values.map (·.call) ++ c.ledger.inFlight.values.map (·.call)).map
          (.answered · (.failed leaving)) ++
        c.interests.clients.map .unwatched ++ .hook .shutDown ::
        if c.backend.defersShutdown then []
        else c.withdrawal ++ c.disconnectCalls.map (.answered · (.returned .done))) ∧
    c'.tables = if c.backend.defersShutdown then c.handlesLeft told.tables
      else (c.handlesLeft told.tables).collect.2
  shutDown : c'.shutDown = !c.backend.defersShutdown
  registered : c'.registered = (c.registered && c.backend.defersShutdown)
  waiting : c'.disconnectCalls = if c.backend.defersShutdown then c.disconnectCalls else []

theorem length_calls (l : RequestLedger) : l.calls.length = l.outstanding := by
  rw [RequestLedger.calls, RequestLedger.outstanding, Nat.add_comm]
  simp [SortedMap.values, SortedMap.size]

/-- Nothing is left of what a connection knew of people, nor of its channels. -/
theorem enter_gone (hquiet : AllManagers Manager.Quiet c) (hwatching : c.Watching)
    (hshut : c.shutDown = false) (reason : StatusReason) :
    ∃ c', c.enter .disconnected reason = .ok c' ∧ c.Farewell reason c' ∧ c'.Personal ∧
      AllManagers Manager.Ended c' := by
  have hdistinct : c.seats.Nodup := List.nodup_range
  obtain ⟨tables, managers, acts, htold, hnotified⟩ :=
    notifyAll_gone (c := c.heralded .disconnected reason) hquiet hdistinct fun _ h => h
  let told : Connection σ ρ := { c.heralded .disconnected reason with
    managers, tables
    log := (c.heralded .disconnected reason).log ++
      c.seats.flatMap fun seat => .notified seat .disconnected :: acts seat }
  obtain ⟨bus, hwatched, htorn⟩ := tearDown_eq (c := told) rfl hshut
  refine ⟨told.tearDown, Except.bind_eq_ok.mpr ⟨told, hnotified, rfl⟩, ?_, ?_, ?_⟩
  · rw [htorn]
    refine ⟨rfl, length_calls c.ledger,
      ⟨told, acts, hnotified, htold.nobody, ?_, ?_, rfl⟩, rfl, rfl,
      rfl⟩
    · intro seat server list data hm
      have hseat : seat < c.managers.length := (List.getElem?_eq_some_iff.mp hm).1
      exact htold.closed seat (List.mem_range.mpr hseat) server list data hm
    · simp only [told, heralded, emit, Connection.record, withdrawal, RequestLedger.calls,
        List.append_assoc, List.cons_append, List.nil_append]
  · rw [htorn]
    refine ⟨fun client hin => ?_, fun _ => ⟨rfl, rfl, rfl⟩⟩
    rw [hwatched] at hin
    obtain ⟨hin, hnot⟩ := Bus.mem_watched_unwatchAll.mp hin
    exact absurd (SortedMap.mem_keys.mpr (hwatching client hin)) hnot
  · rw [htorn]
    intro seat m hm
    have hseat : seat < managers.length := (List.getElem?_eq_some_iff.mp hm).1
    exact htold.ended seat (List.mem_range.mpr (htold.length ▸ hseat)) m hm

/-! ## Operations -/

/-- The call of a client that asks to disconnect. -/
def callers : Operation σ ρ → List CallId
  | .disconnect call => [call]
  | _ => []

/-- What happens in an operation before the status can change. -/
def preamble : Operation σ ρ → List Event
  | .connect => [.hook .startConnecting]
  | _ => []

/-- The connection when an operation has come to the point where the status changes. -/
def approach (c : Connection σ ρ) (op : Operation σ ρ) : Connection σ ρ :=
  { c with log := c.log ++ preamble op, disconnectCalls := c.disconnectCalls ++ callers op }

/-- That an operation makes the connection disconnected, and the reason that is given. -/
def EndsBy (c : Connection σ ρ) (reason : StatusReason) : Operation σ ρ → Prop
  | .connect => c.status = .new ∧ ∃ e, c.backend.startFailure = some e ∧ reason = e.statusReason
  | .disconnect _ => reason = .requested
  | .changeStatus status r => status = .disconnected ∧ reason = r
  | _ => False

theorem changeStatus_gone (hstatus : c.status ≠ .disconnected) {reason : StatusReason}
    (henter : c.enter .disconnected reason = .ok c₁) :
    c.changeStatus .disconnected reason = .ok (.ok (), c₁) := by
  have hroute : c.status.route .disconnected = .ok .direct := by
    cases hs : c.status with
    | disconnected => exact absurd hs hstatus
    | _ => rfl
  have hcheck : c.checkChange .disconnected = .ok .direct := by
    unfold checkChange
    rw [hroute]
    rfl
  simp only [changeStatus, hcheck, henter]
  rfl

/-- An operation that makes the connection disconnected succeeds if the change does. -/
theorem step_gone (hstatus : c.status ≠ .disconnected) (hshut : c.shutDown = false)
    {op : Operation σ ρ} {reason : StatusReason} (hends : c.EndsBy reason op)
    (henter : (c.approach op).enter .disconnected reason = .ok c₁) :
    ∃ outcome, c.step op = .ok (outcome, c₁) := by
  have hchange := changeStatus_gone (c := c.approach op) hstatus henter
  cases op with
  | connect =>
    obtain ⟨hnew, e, hfailure, rfl⟩ := hends
    have happroach : c.approach .connect = c.record [.hook .startConnecting] := by
      simp only [approach, preamble, callers, List.append_nil]
      rfl
    rw [happroach] at hchange
    refine ⟨.error (.error e), Except.map_eq_ok.mpr ⟨(.error e, c₁), ?_, rfl⟩⟩
    unfold Connection.connect
    rw [if_neg (not_not_intro hnew)]
    have hfailure' : (c.record [.hook .startConnecting]).backend.startFailure = some e := hfailure
    simp only [hfailure', hchange]
    rfl
  | disconnect call =>
    obtain rfl : reason = .requested := hends
    have happroach : c.approach (.disconnect call) =
        { c with disconnectCalls := c.disconnectCalls ++ [call] } := by
      simp only [approach, preamble, callers, List.append_nil]
    rw [happroach] at hchange
    refine ⟨.ok .nothing, Except.map_eq_ok.mpr ⟨c₁, ?_, rfl⟩⟩
    unfold Connection.disconnect
    rw [if_neg (Bool.eq_false_iff.mp hshut)]
    dsimp only
    rw [if_neg hstatus, hchange]
    rfl
  | changeStatus status r =>
    obtain ⟨rfl, rfl⟩ := hends
    have happroach : c.approach (.changeStatus .disconnected reason) = c := by
      simp only [approach, preamble, callers, List.append_nil]
    rw [happroach] at hchange
    exact ⟨.ok .nothing, Except.map_eq_ok.mpr ⟨_, hchange, rfl⟩⟩
  | _ => exact hends.elim

/-- No other operation makes the connection disconnected. -/
theorem endsBy_of_step (hstatus : c.status ≠ .disconnected) {op : Operation σ ρ}
    {out : StepOutcome σ ρ} (hstep : c.step op = .ok out) (hgone : out.2.status = .disconnected) :
    ∃ reason, c.EndsBy reason op := by
  by_cases hvital : op.isVital = true
  · cases op with
    | connect =>
      obtain ⟨⟨outcome, c'⟩, hconnect, rfl⟩ := Except.map_eq_ok.mp hstep
      rcases connect_cases hconnect with ⟨-, rfl⟩ | ⟨hnew, changed, hchange⟩
      · exact absurd hgone hstatus
      · rcases c.outset_cases with ⟨-, houtset⟩ | ⟨e, hfailure, -⟩
        · rw [houtset] at hchange
          obtain ⟨-, henter⟩ := changeStatus_of_new
            (c := c.record [.hook .startConnecting]) hnew (.inl rfl) hchange
          exact absurd ((status_entered henter).symm.trans hgone) (by decide)
        · exact ⟨e.statusReason, hnew, e, hfailure, rfl⟩
    | disconnect call => exact ⟨.requested, rfl⟩
    | finishShutdown =>
      cases hstep
      exact absurd ((status_finishShutdown c).symm.trans hgone) hstatus
    | changeStatus status reason =>
      obtain ⟨⟨outcome, c'⟩, hchange, rfl⟩ := Except.map_eq_ok.mp hstep
      obtain rfl | ⟨-, henter⟩ | ⟨-, -, c'', -, hsecond⟩ := changeStatus_cases hchange
      · exact absurd hgone hstatus
      · exact ⟨reason, (status_entered henter).symm.trans hgone, rfl⟩
      · exact absurd ((status_entered hsecond).symm.trans hgone) (by decide)
    | _ => cases hvital
  · have hstays := stays_step (allManagers_discreet_none c) (Bool.eq_false_iff.mpr hvital) hstep
    exact absurd (hstays.status.symm.trans hgone) hstatus

/-! ## Throughout a run -/

/-- What makes sure that a connection can take its leave, and that nothing is left when it has. -/
structure Prepared (c : Connection σ ρ) : Prop where
  orderly : c.Orderly
  personal : c.Personal
  quiet : AllManagers Manager.Quiet c
  ended : c.status = .disconnected → AllManagers Manager.Ended c

/-- Nothing is waiting, known or listed. -/
structure Released (c : Connection σ ρ) : Prop where
  outstanding : c.outstanding = 0
  self : c.self = none
  unwanted : ∀ token, c.interests.isWanted token = false
  unwatched : ∀ client, client ∉ c.bus.watched
  lists : ∀ (seat : Nat) server list data, c.managers[seat]? = some (.contacts server list data) →
    list.roster = .disconnected ∧ list.channels = .empty ∧ list.queuedRequests = 0

namespace Prepared

theorem released (h : c.Prepared) (hstatus : c.status = .disconnected) : c.Released := by
  obtain ⟨hself, hholders, hdeclared⟩ := h.personal.2 hstatus
  obtain ⟨hflight, hparked⟩ := h.orderly.gone hstatus
  refine ⟨?_, hself, fun token => ?_, fun client hin => ?_, fun seat server list data hm => ?_⟩
  · rw [Connection.outstanding, RequestLedger.outstanding, hflight, hparked]
    rfl
  · rw [InterestTable.isWanted, InterestTable.clientsInterested, hholders]
    rfl
  · have hdeclares := h.personal.1 client hin
    rw [hdeclared] at hdeclares
    cases hdeclares
  · have hended : list.Ended := h.ended hstatus seat _ hm
    exact ⟨hended.1, hended.2, hended.queuedRequests⟩

/-- An operation that is to make the connection disconnected does so, with all that belongs to
it. -/
theorem leave (h : c.Prepared) (hstatus : c.status ≠ .disconnected) {op : Operation σ ρ}
    {reason : StatusReason} (hends : c.EndsBy reason op) :
    ∃ outcome c', c.step op = .ok (outcome, c') ∧ (c.approach op).Farewell reason c' ∧
      c'.Personal ∧ AllManagers Manager.Ended c' := by
  have hshut := h.orderly.not_over hstatus
  obtain ⟨c', henter, hfarewell, hpersonal, hended⟩ :=
    enter_gone (c := c.approach op) h.quiet h.personal.1 hshut reason
  obtain ⟨outcome, hstep⟩ := step_gone hstatus hshut hends henter
  exact ⟨outcome, c', hstep, hfarewell, hpersonal, hended⟩

end Prepared

/-- Entering any status but the last has nothing to do with people. -/
theorem watching_enter (h : c.Watching) {status : Status} {reason : StatusReason}
    (hstatus : status ≠ .disconnected) (henter : c.enter status reason = .ok c₁) :
    c₁.Watching := by
  obtain ⟨events, told, -, hserved, rfl⟩ := enter_eq_ok henter
  rw [if_neg hstatus, hserved.frame]
  exact h

theorem watching_changeStatus (h : c.Watching) {status : Status} {reason : StatusReason}
    {outcome : Except TransitionError Unit} (hstatus : status ≠ .disconnected)
    (hchange : c.changeStatus status reason = .ok (outcome, c₁)) : c₁.Watching := by
  obtain rfl | ⟨-, henter⟩ | ⟨-, rfl, c', hfirst, hsecond⟩ := changeStatus_cases hchange
  · exact h
  · exact watching_enter h hstatus henter
  · exact watching_enter (watching_enter h (by decide) hfirst) (by decide) hsecond

/-- In a connection that is gone, the operations about its life do next to nothing. -/
theorem step_of_gone (hstatus : c.status = .disconnected) {op : Operation σ ρ}
    (hvital : op.isVital = true) (hop : op ≠ .finishShutdown) {out : StepOutcome σ ρ}
    (hstep : c.step op = .ok out) :
    (∃ call, op = .disconnect call ∧ out.2 =
      if c.shutDown then c.answer call (.returned .done)
      else { c with disconnectCalls := c.disconnectCalls ++ [call] }) ∨
    callers op = [] ∧ out.2 = c := by
  cases op with
  | connect =>
    obtain ⟨⟨outcome, c'⟩, hconnect, rfl⟩ := Except.map_eq_ok.mp hstep
    rcases connect_cases hconnect with ⟨-, rfl⟩ | ⟨hnew, -⟩
    · exact .inr ⟨rfl, rfl⟩
    · rw [hstatus] at hnew
      cases hnew
  | disconnect call =>
    obtain ⟨c', hdisconnect, rfl⟩ := Except.map_eq_ok.mp hstep
    refine .inl ⟨call, rfl, ?_⟩
    rcases disconnect_cases hdisconnect with ⟨hover, rfl⟩ | ⟨hover, -, rfl⟩ | ⟨-, hlives, -⟩
    · exact (if_pos hover).symm
    · exact (if_neg (Bool.eq_false_iff.mp hover)).symm
    · exact absurd hstatus hlives
  | finishShutdown => exact absurd rfl hop
  | changeStatus status reason =>
    obtain ⟨⟨outcome, c'⟩, hchange, rfl⟩ := Except.map_eq_ok.mp hstep
    obtain rfl | ⟨hroute, -⟩ | ⟨hnew, -⟩ := changeStatus_cases hchange
    · exact .inr ⟨rfl, rfl⟩
    · exact absurd hstatus (Status.ne_disconnected_of_route hroute)
    · rw [hstatus] at hnew
      cases hnew
  | _ => cases hvital

theorem personal_finishShutdown (h : c.Personal) : c.finishShutdown.Personal := by
  by_cases hend : c.status = .disconnected ∧ c.shutDown = false
  · obtain ⟨bus, hwatched, heq⟩ := finishShutdown_eq hend.1 hend.2
    rw [heq]
    exact h.of_eq rfl rfl hwatched rfl
  · rw [finishShutdown, if_neg hend]
    exact h

/-- A change to being disconnected that does not make the connection disconnected does nothing. -/
theorem eq_of_changeStatus_alive {reason : StatusReason} {outcome : Except TransitionError Unit}
    (hchange : c.changeStatus .disconnected reason = .ok (outcome, c₁))
    (hlives : c₁.status ≠ .disconnected) : c₁ = c := by
  obtain rfl | ⟨-, henter⟩ | ⟨-, hconnected, -⟩ := changeStatus_cases hchange
  · rfl
  · exact absurd (status_entered henter) hlives
  · cases hconnected

/-- An operation about the life of a connection that goes on has nothing to do with people. -/
theorem watching_vital (h : c.Watching) (hstatus : c.status ≠ .disconnected) {op : Operation σ ρ}
    (hvital : op.isVital = true) {out : StepOutcome σ ρ} (hstep : c.step op = .ok out)
    (hlives : out.2.status ≠ .disconnected) : out.2.Watching := by
  have hchanged : ∀ {c c₁ : Connection σ ρ} {status reason outcome}, c.Watching →
      c.changeStatus status reason = .ok (outcome, c₁) → c₁.status ≠ .disconnected →
      c₁.Watching := by
    intro c c₁ status reason outcome h hchange hlives
    by_cases hgone : status = .disconnected
    · subst hgone
      rw [eq_of_changeStatus_alive hchange hlives]
      exact h
    · exact watching_changeStatus h hgone hchange
  cases op with
  | connect =>
    obtain ⟨⟨outcome, c'⟩, hconnect, rfl⟩ := Except.map_eq_ok.mp hstep
    rcases connect_cases hconnect with ⟨-, rfl⟩ | ⟨-, changed, hchange⟩
    · exact h
    · exact hchanged (c := c.record [.hook .startConnecting]) h hchange hlives
  | disconnect call =>
    obtain ⟨c', hdisconnect, rfl⟩ := Except.map_eq_ok.mp hstep
    rcases disconnect_cases hdisconnect with ⟨-, rfl⟩ | ⟨-, -, rfl⟩ | ⟨-, -, changed, hchange⟩
    · exact h
    · exact h
    · exact hchanged (c := { c with disconnectCalls := c.disconnectCalls ++ [call] }) h hchange
        hlives
  | finishShutdown =>
    cases hstep
    rw [finishShutdown, if_neg fun hend => hstatus hend.1]
    exact h
  | changeStatus status reason =>
    obtain ⟨⟨outcome, c'⟩, hchange, rfl⟩ := Except.map_eq_ok.mp hstep
    exact hchanged h hchange hlives
  | _ => cases hvital

/-- What is known of people stays in order in every operation that does not end the connection. -/
theorem personal_step (h : c.Personal) {op : Operation σ ρ} {out : StepOutcome σ ρ}
    (hstep : c.step op = .ok out)
    (hlives : c.status ≠ .disconnected → out.2.status ≠ .disconnected) : out.2.Personal := by
  by_cases hvital : op.isVital = true
  · by_cases hstatus : c.status = .disconnected
    · by_cases hop : op = .finishShutdown
      · subst hop
        cases hstep
        exact personal_finishShutdown h
      · obtain ⟨call, -, heq⟩ | ⟨-, heq⟩ := step_of_gone hstatus hvital hop hstep
        · rw [heq]
          split
          · exact h
          · exact h
        · rw [heq]
          exact h
    · exact ⟨watching_vital h.1 hstatus hvital hstep (hlives hstatus), fun hgone =>
        absurd hgone (hlives hstatus)⟩
  · exact (stays_step (allManagers_discreet_none c) (Bool.eq_false_iff.mpr hvital) hstep).personal h

theorem Prepared.step (h : c.Prepared) {op : Operation σ ρ} {out : StepOutcome σ ρ}
    (hstep : c.step op = .ok out) : out.2.Prepared := by
  have horderly := (h.orderly.step hstep).orderly
  have hquiet := h.quiet.step Manager.quiet_lasting hstep
  by_cases hstatus : c.status = .disconnected
  · exact ⟨horderly, personal_step h.personal hstep fun hne => absurd hstatus hne, hquiet,
      fun _ => (h.ended hstatus).step Manager.ended_lasting hstep⟩
  · by_cases hgone : out.2.status = .disconnected
    · obtain ⟨reason, hends⟩ := endsBy_of_step hstatus hstep hgone
      obtain ⟨outcome, c', hstep', -, hpersonal, hended⟩ := h.leave hstatus hends
      rw [hstep'] at hstep
      cases hstep
      exact ⟨horderly, hpersonal, hquiet, fun _ => hended⟩
    · exact ⟨horderly, personal_step h.personal hstep fun _ => hgone, hquiet,
        fun hs => absurd hs hgone⟩

theorem Prepared.run (h : c.Prepared) {ops : List (Operation σ ρ)} (hrun : c.run ops = .ok c₁) :
    c₁.Prepared := by
  induction ops generalizing c with
  | nil =>
    cases hrun
    exact h
  | cons op ops ih =>
    obtain ⟨out, hstep, hrest⟩ := run_cons.mp hrun
    exact ih (h.step hstep) hrest

theorem prepared_new {backend : Backend} {config : Config} {tables : HandleTables}
    {plans : List (ManagerPlan σ ρ)}
    (hquiet : ∀ b state, .custom b state ∈ plans → ∀ s,
      reportedTokens (b.statusChanged s .disconnected).2 = []) :
    (new backend config tables plans).Prepared := by
  refine ⟨orderly_new backend config tables plans, ⟨fun client hin => ?_, nofun⟩,
    .of_behaviours (fun b state hplan _ => hquiet b state hplan) fun _ _ _ => trivial, nofun⟩
  exact absurd hin (SortedSet.not_mem_empty client)

/-- Once a connection is gone, only the end of the shutdown takes it off the bus and answers those
who asked to disconnect. -/
theorem step_late (hstatus : c.status = .disconnected) {op : Operation σ ρ}
    (hop : op ≠ .finishShutdown) {out : StepOutcome σ ρ} (hstep : c.step op = .ok out) :
    out.2.status = .disconnected ∧ out.2.shutDown = c.shutDown ∧
      (c.registered = true → out.2.registered = true) ∧
      (c.shutDown = false → out.2.disconnectCalls = c.disconnectCalls ++ callers op ∧
        ∃ events, out.2.log = c.log ++ events ∧ ∀ e ∈ events, e.IsOrdinary none) := by
  by_cases hvital : op.isVital = true
  · obtain ⟨call, rfl, heq⟩ | ⟨hnobody, heq⟩ := step_of_gone hstatus hvital hop hstep
    · rw [heq]
      split
      case isTrue hover => exact ⟨hstatus, rfl, id, fun hshut => absurd (hshut ▸ hover) (by decide)⟩
      case isFalse => exact ⟨hstatus, rfl, id, fun _ => ⟨rfl, unlogged_ordinary⟩⟩
    · rw [heq, hnobody, List.append_nil]
      exact ⟨hstatus, rfl, id, fun _ => ⟨rfl, unlogged_ordinary⟩⟩
  · have hstays := stays_step (allManagers_discreet_none c) (Bool.eq_false_iff.mpr hvital) hstep
    have hnobody : callers op = [] := by
      cases op with
      | disconnect call => exact absurd rfl hvital
      | _ => rfl
    refine ⟨hstays.status.trans hstatus, ?_, hstays.registered, fun _ => ⟨?_, hstays.events⟩⟩
    · rw [hstays.frame]
    · rw [hstays.frame, hnobody, List.append_nil]

/-- Disconnecting is a barrier. Whatever led to a state that is not disconnected, an operation that
is to disconnect it succeeds and answers all requests that wait, once and in order, closes all
channels of contact lists, and forgets its user and all interests. The connection leaves the bus,
answers those who asked to disconnect in the order in which they did, and reclaims handles in the
same step if the backend is done with its shutdown, and at the end of the shutdown otherwise. No
other operation disconnects it, and nothing brings back what is gone. -/
theorem run_releases_everything (backend : Backend) (config : Config) (tables : HandleTables)
    (plans : List (ManagerPlan σ ρ))
    (hquiet : ∀ b state, .custom b state ∈ plans → ∀ s,
      reportedTokens (b.statusChanged s .disconnected).2 = [])
    {ops : List (Operation σ ρ)} {c : Connection σ ρ}
    (hrun : (new backend config tables plans).run ops = .ok c) :
    (c.status ≠ .disconnected →
      (∀ op reason, c.EndsBy reason op → ∃ outcome c', c.step op = .ok (outcome, c') ∧
        (c.approach op).Farewell reason c' ∧ c'.Released) ∧
      ∀ op outcome c', c.step op = .ok (outcome, c') → c'.status = .disconnected →
        ∃ reason, c.EndsBy reason op) ∧
    (c.status = .disconnected → c.Released ∧
      (∀ op outcome c', c.step op = .ok (outcome, c') → op ≠ .finishShutdown →
        c'.status = .disconnected ∧ c'.shutDown = c.shutDown ∧
          (c.registered = true → c'.registered = true) ∧
          (c.shutDown = false → c'.disconnectCalls = c.disconnectCalls ++ callers op ∧
            ∃ events, c'.log = c.log ++ events ∧ ∀ e ∈ events, e.IsOrdinary none)) ∧
      (c.shutDown = false → ∃ c', c.step .finishShutdown = .ok (.ok .nothing, c') ∧
        c'.status = .disconnected ∧ c'.shutDown = true ∧ c'.registered = false ∧
          c'.disconnectCalls = [] ∧ c'.tables = c.tables.collect.2 ∧
          c'.log = c.log ++
            (c.withdrawal ++ c.disconnectCalls.map (.answered · (.returned .done))))) := by
  have hprepared := (prepared_new hquiet).run hrun
  refine ⟨fun hstatus => ⟨fun op reason hends => ?_, fun op outcome c' hstep hgone => ?_⟩,
    fun hstatus => ⟨hprepared.released hstatus, fun op outcome c' hstep hop => ?_,
      fun hshut => ?_⟩⟩
  · obtain ⟨outcome, c', hstep, hfarewell, -, -⟩ := hprepared.leave hstatus hends
    exact ⟨outcome, c', hstep, hfarewell, (hprepared.step hstep).released hfarewell.status⟩
  · exact endsBy_of_step hstatus hstep hgone
  · exact step_late hstatus hop hstep
  · obtain ⟨bus, -, hfinish⟩ := finishShutdown_eq hstatus hshut
    refine ⟨c.finishShutdown, rfl, ?_⟩
    rw [hfinish]
    exact ⟨hstatus, rfl, rfl, rfl, rfl, rfl⟩

/-- A contact list, and a manager that takes charge of all requests for text channels. -/
def listAndKeeper : List (ManagerPlan ScriptedManager MemoryRoster) :=
  [.contacts (MemoryRoster.server ⟨true, true, false, true, .editable .native⟩ [] false) .empty,
    .custom ScriptedManager.behaviour fun path =>
      ⟨1, path, [⟨some "text", none, none, .hold⟩], [], []⟩]

theorem quiet_listAndKeeper (b : Behaviour ScriptedManager) (state : ObjectPath → ScriptedManager)
    (h : .custom b state ∈ listAndKeeper) (s : ScriptedManager) :
    reportedTokens (b.statusChanged s .disconnected).2 = [] := by
  obtain ⟨rfl, -⟩ : b = ScriptedManager.behaviour ∧ _ := by simpa [listAndKeeper] using h
  rfl

/-- A connection with these managers, where contacts have to be looked up and the shutdown takes
time. -/
def lingering : Connection ScriptedManager MemoryRoster :=
  .new ⟨"sample", "account", [], ["presence"], none, true, fun _ _ _ => none⟩ .standard
    ⟨.requiringLookup .contact, none, some (.onDemand .list), some (.onDemand .group)⟩ listAndKeeper

/-- One request waits for a lookup and another for a manager; a client is interested. -/
def inFullSwing : List (Operation ScriptedManager MemoryRoster) :=
  [.register, .setSelf (.id "user"), .changeStatus .connected .requested, .contacts 0 .received,
    .addInterest ⟨"client"⟩ ["presence"],
    .request ⟨1⟩ .create (.ofList [(Property.channelType, .text "text"),
      (Property.targetEntity, .nat 1), (Property.targetId, .text "somebody")]),
    .request ⟨2⟩ .create (.ofList [(Property.channelType, .text "text")])]

/-- Asking to disconnect then answers both and leaves nothing, though the shutdown is not over. -/
theorem inFullSwing_released :
    ∃ c outcome c', lingering.run inFullSwing = .ok c ∧ c.outstanding = 2 ∧
      c.bus.watched.toList = [⟨"client"⟩] ∧
      c.step (.disconnect ⟨3⟩) = .ok (outcome, c') ∧ c'.Released ∧ c'.shutDown = false ∧
      c'.registered = true ∧ c'.disconnectCalls = [⟨3⟩] := by
  have heval : ((lingering.run inFullSwing).toOption.any fun c =>
      c.outstanding = 2 && (c.bus.watched.toList = [⟨"client"⟩] && (c.status = .connected &&
        (c.backend.defersShutdown && (c.registered && c.disconnectCalls = []))))) = true := by
    decide +kernel
  obtain ⟨c, hrun, hc⟩ := Except.eq_ok_of_any heval
  simp only [Bool.and_eq_true, decide_eq_true_iff] at hc
  obtain ⟨houtstanding, hwatched, hstatus, hdefers, hregistered, hcalls⟩ := hc
  have hreleases := run_releases_everything _ _ _ _ quiet_listAndKeeper hrun
  obtain ⟨outcome, c', hstep, hfarewell, hreleased⟩ :=
    (hreleases.1 (by rw [hstatus]; decide)).1 (.disconnect ⟨3⟩) .requested rfl
  refine ⟨c, outcome, c', hrun, houtstanding, hwatched, hstep, hreleased, ?_, ?_, ?_⟩
  · rw [hfarewell.shutDown, approach, hdefers]
    rfl
  · rw [hfarewell.registered, approach, hdefers, hregistered]
    rfl
  · rw [hfarewell.waiting, approach, hdefers, hcalls]
    rfl

end Connection

end Telepathy

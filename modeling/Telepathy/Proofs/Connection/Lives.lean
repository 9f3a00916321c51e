import Telepathy.Channel.Scripted
import Telepathy.ContactList.MemoryServer
import Telepathy.Proofs.Connection.Accounts
import Telepathy.Proofs.Connection.Staying

set_option autoImplicit false

/-!
# The life of a connection, told from its log

The milestones of a connection's life are the news of its status, the hooks by which the backend
learns of it, and the notices to managers. Entering a status has a fixed list of milestones: the
signal, the hook, one notice for every manager in turn, and at the end of all the call to shut down.
Since only entering a status has milestones, the log of any run tells a life, and there are few:
statuses are entered at most once each, in their order, and nothing follows the last.
-/

namespace Telepathy

/-- Whether an event is part of the life of the connection at `path`. -/
def Event.isMilestone (path : ObjectPath) : Event → Bool
  | .signal p (.statusChanged _ _) => p == path
  | .hook (.interested _) | .hook (.uninterested _) => false
  | .hook _ | .notified _ _ => true
  | _ => false

theorem Event.IsOrdinary.not_milestone {path : ObjectPath} {e : Event}
    (h : e.IsOrdinary (some path)) : e.isMilestone path = false := by
  cases e with
  | signal p s =>
    cases s with
    | statusChanged status reason =>
      exact beq_eq_false_iff_ne.mpr fun hp => h (congrArg some hp.symm)
    | _ => rfl
  | hook k => cases k <;> first | rfl | exact h.elim
  | notified seat status => exact h.elim
  | _ => rfl

/-- The statuses that a connection enters one after the other, with the reasons. -/
abbrev Journey := List (Status × StatusReason)

namespace Journey

/-- The status at the end of a journey that starts new. -/
def destination (j : Journey) : Status := (j.map Prod.fst).getLastD .new

theorem destination_append (j : Journey) (status : Status) (reason : StatusReason) :
    destination (j ++ [(status, reason)]) = status := by
  simp [destination]

end Journey

namespace Connection

variable {σ ρ : Type} {c c₁ c₂ : Connection σ ρ}

/-! ## Milestones -/

/-- What a log tells of the connection's life. -/
def milestones (c : Connection σ ρ) : List Event := c.log.filter (Event.isMilestone c.names.path)

theorem milestones_record (c : Connection σ ρ) (events : List Event) :
    (c.record events).milestones = c.milestones ++ events.filter (Event.isMilestone c.names.path) :=
  List.filter_append ..

theorem milestones_of_log (hnames : c₁.names = c.names) {events : List Event}
    (hlog : c₁.log = c.log ++ events)
    (h : ∀ e ∈ events, e.isMilestone c.names.path = false) : c₁.milestones = c.milestones := by
  rw [milestones, hnames, hlog, List.filter_append, milestones]
  exact List.append_right_eq_self.mpr (List.filter_eq_nil_iff.mpr fun e he => by simp [h e he])

/-- While the status stays, life goes on without milestones. -/
theorem Stays.milestones (h : c.Stays (some c.names.path) c₁) : c₁.milestones = c.milestones := by
  obtain ⟨events, hlog, hordinary⟩ := h.events
  exact milestones_of_log h.names hlog fun e he => (hordinary e he).not_milestone

/-! ## Entering a status -/

/-- The milestones of entering a status. -/
def entering (path : ObjectPath) (seats : List Nat) (source target : Status)
    (reason : StatusReason) : List Event :=
  .signal path (.statusChanged target reason) :: (hookFor source target).toList.map .hook ++
    seats.map (.notified · target) ++ if target = .disconnected then [.hook .shutDown] else []

/-- What is fixed about a connection while it enters a status. -/
structure Enters (c : Connection σ ρ) (events : List Event) (c' : Connection σ ρ) : Prop where
  names : c'.names = c.names
  seats : c'.seats = c.seats
  milestones : c'.milestones = c.milestones ++ events

theorem Enters.trans {events events' : List Event} (h : c.Enters events c₁)
    (h' : c₁.Enters events' c₂) : c.Enters (events ++ events') c₂ where
  names := h'.names.trans h.names
  seats := h'.seats.trans h.seats
  milestones := by rw [h'.milestones, h.milestones, List.append_assoc]

theorem Stays.enters (h : c.Stays (some c.names.path) c₁) : c.Enters [] c₁ where
  names := h.names
  seats := by rw [Connection.seats, h.seats, Connection.seats]
  milestones := by rw [h.milestones, List.append_nil]

theorem enters_record (c : Connection σ ρ) (events : List Event)
    (h : events.filter (Event.isMilestone c.names.path) = events) :
    c.Enters events (c.record events) :=
  ⟨rfl, rfl, by rw [milestones_record, h]⟩

/-- A stage without milestones that leaves the managers alone. -/
theorem enters_nothing (hnames : c₁.names = c.names) (hmanagers : c₁.managers = c.managers)
    {events : List Event} (hlog : c₁.log = c.log ++ events)
    (h : ∀ e ∈ events, e.isMilestone c.names.path = false) : c.Enters [] c₁ where
  names := hnames
  seats := by rw [Connection.seats, hmanagers, Connection.seats]
  milestones := by rw [milestones_of_log hnames hlog h, List.append_nil]

theorem enters_notifyAt (hm : AllManagers (Manager.Discreet (some c.names.path)) c)
    {status : Status}
    {seat : Nat} (hseat : seat ∈ c.seats) (h : c.notifyAt status seat = .ok c₁) :
    c.Enters [.notified seat status] c₁ := by
  unfold notifyAt at h
  split at h
  case h_1 hnone =>
    exact absurd (List.mem_range.mp hseat) (Nat.not_lt.mpr (List.getElem?_eq_none_iff.mp hnone))
  case h_2 m hget =>
    have hnoticed := enters_record c [.notified seat status] rfl
    exact hnoticed.trans (stays_takeTurn ((hm seat m hget).statusChanged c.tables status) h).enters

theorem enters_notifyAll (hm : AllManagers (Manager.Discreet (some c.names.path)) c)
    {status : Status}
    {seats : List Nat} (hseats : ∀ seat ∈ seats, seat ∈ c.seats)
    (h : seats.foldlM (notifyAt status) c = .ok c₁) :
    c.Enters (seats.map (.notified · status)) c₁ := by
  induction seats generalizing c with
  | nil =>
    cases h
    exact (Stays.refl _).enters
  | cons seat seats ih =>
    obtain ⟨c', hfirst, hrest⟩ := Except.bind_eq_ok.mp (by rwa [List.foldlM_cons] at h)
    have hnoticed := enters_notifyAt hm (hseats seat List.mem_cons_self) hfirst
    refine hnoticed.trans (ih ?_ (fun s hs => ?_) hrest)
    · rw [hnoticed.names]
      exact (hm.notifyAt (Manager.discreet_lasting _) status seat).of_ok hfirst
    · rw [hnoticed.seats]
      exact hseats s (.tail _ hs)

/-! ### Tearing down -/

/-- Answers are no milestones. -/
theorem not_milestone_answers (path : ObjectPath) (calls : List CallId) (a : CallAnswer) :
    ∀ e ∈ calls.map (.answered · a), Event.isMilestone path e = false := by
  intro e he
  obtain ⟨call, -, rfl⟩ := List.mem_map.mp he
  rfl

theorem enters_withdraw (c : Connection σ ρ) : c.Enters [] c.withdraw := by
  unfold withdraw
  split
  · exact enters_nothing rfl rfl rfl (by simp [Event.isMilestone])
  · exact (Stays.refl c).enters

theorem enters_finishShutdown (c : Connection σ ρ) : c.Enters [] c.finishShutdown := by
  unfold finishShutdown
  split
  · have hmarked : c.Enters [] { c with shutDown := true } :=
      enters_nothing rfl rfl (List.append_nil _).symm (by simp)
    have hanswered : ∀ c : Connection σ ρ, c.Enters [] c.answerDisconnects := fun c =>
      enters_nothing rfl rfl rfl (not_milestone_answers _ _ _)
    have hcollected : ∀ c : Connection σ ρ, c.Enters [] c.collect.2 := fun c =>
      enters_nothing rfl rfl (List.append_nil _).symm (by simp)
    exact ((hmarked.trans (enters_withdraw _)).trans (hanswered _)).trans (hcollected _)
  · exact (Stays.refl c).enters

theorem enters_tearDown (c : Connection σ ρ) : c.Enters [.hook .shutDown] c.tearDown := by
  have hfailed : c.Enters [] c.failOutstanding :=
    enters_nothing rfl rfl rfl (not_milestone_answers _ _ _)
  have hforgotten : c.failOutstanding.Enters [] c.failOutstanding.forgetSelf :=
    enters_nothing rfl rfl (List.append_nil _).symm (by simp)
  have hunwatched : c.failOutstanding.forgetSelf.Enters []
      c.failOutstanding.forgetSelf.forgetInterests := by
    refine enters_nothing rfl rfl rfl fun e he => ?_
    obtain ⟨client, -, rfl⟩ := List.mem_map.mp he
    rfl
  have hcalled : ∀ c : Connection σ ρ, c.Enters [.hook .shutDown] c.shutDownBackend := by
    intro c
    have hhook := enters_record c [.hook .shutDown] rfl
    unfold shutDownBackend
    dsimp only
    split
    · exact hhook
    · exact hhook.trans (enters_finishShutdown _)
  exact ((hfailed.trans hforgotten).trans hunwatched).trans (hcalled _)

/-- A connection that is about to tell its managers of a status, which was signalled and of which
the backend was told. -/
def heralded (c : Connection σ ρ) (status : Status) (reason : StatusReason) : Connection σ ρ :=
  ({ c with status }.emit (.statusChanged status reason)).record
    ((hookFor c.status status).toList.map .hook)

theorem enters_heralded (c : Connection σ ρ) (status : Status) (reason : StatusReason) :
    c.Enters (.signal c.names.path (.statusChanged status reason) ::
      (hookFor c.status status).toList.map .hook) (c.heralded status reason) := by
  have hchanged : c.Enters [] { c with status } :=
    enters_nothing rfl rfl (List.append_nil _).symm (by simp)
  have hsignalled := hchanged.trans (enters_record _
    [.signal c.names.path (.statusChanged status reason)] (by simp [Event.isMilestone]))
  refine hsignalled.trans (enters_record _ _ (List.filter_eq_self.mpr fun e he => ?_))
  obtain ⟨k, hk, rfl⟩ := List.mem_map.mp he
  rw [Option.mem_toList] at hk
  cases hold : c.status <;> cases status <;> rw [hold] at hk <;> cases hk <;> rfl

/-- Entering a status leads exactly to its milestones. -/
theorem enters_enter (hm : AllManagers (Manager.Discreet (some c.names.path)) c) {status : Status}
    {reason : StatusReason} (h : c.enter status reason = .ok c₁) :
    c.Enters (entering c.names.path c.seats c.status status reason) c₁ := by
  obtain ⟨told, htold, h⟩ := Except.bind_eq_ok.mp h
  cases h
  have hheralded : AllManagers (Manager.Discreet (some c.names.path)) (c.heralded status reason) :=
    hm
  have hnoticed := (c.enters_heralded status reason).trans
    (enters_notifyAll hheralded (fun _ h => h) htold)
  by_cases hgone : status = .disconnected
  · rw [if_pos hgone, entering, if_pos hgone]
    exact hnoticed.trans (enters_tearDown told)
  · rw [if_neg hgone, entering, if_neg hgone, List.append_nil]
    exact hnoticed

/-! ## Lives -/

/-- The statuses that a connection may have entered so far. -/
def lives : List (List Status) :=
  [[], [.connecting], [.connecting, .connected], [.disconnected], [.connecting, .disconnected],
    [.connecting, .connected, .disconnected]]

/-- A status that can be entered comes last in a life. -/
theorem lives_append {l : List Status} (hl : l ∈ lives) {target : Status}
    (h : (l.getLastD .new).route target = .ok .direct) : l ++ [target] ∈ lives := by
  simp only [lives, List.mem_cons, List.not_mem_nil, or_false] at hl
  rcases hl with rfl | rfl | rfl | rfl | rfl | rfl <;> cases target <;>
    first | decide | simp [Status.route] at h

/-- Who never left is still new. -/
theorem eq_nil_of_destination {j : Journey} (hlife : j.map Prod.fst ∈ lives)
    (hnew : j.destination = .new) : j = [] := by
  rw [← List.map_eq_nil_iff]
  unfold Journey.destination at hnew
  simp only [lives, List.mem_cons, List.not_mem_nil, or_false] at hlife
  rcases hlife with h | h | h | h | h | h
  · exact h
  all_goals
    rw [h] at hnew
    cases hnew

/-- The milestones of a journey. -/
def travelling (path : ObjectPath) (seats : List Nat) : Status → Journey → List Event
  | _, [] => []
  | source, (target, reason) :: rest =>
    entering path seats source target reason ++ travelling path seats target rest

theorem travelling_append (path : ObjectPath) (seats : List Nat) (source target : Status)
    (reason : StatusReason) (j : Journey) :
    travelling path seats source (j ++ [(target, reason)]) =
      travelling path seats source j ++
        entering path seats ((j.map Prod.fst).getLastD source) target reason := by
  induction j generalizing source with
  | nil => simp [travelling]
  | cons step j ih =>
    obtain ⟨status, reason'⟩ := step
    rw [List.cons_append, travelling, ih, travelling, List.append_assoc, List.map_cons,
      List.getLastD_cons]

/-- The log tells a journey, after a call to start it if there was one. -/
structure Tells (path : ObjectPath) (c : Connection σ ρ) (started : Bool) (j : Journey) :
    Prop where
  path : c.names.path = path
  life : j.map Prod.fst ∈ lives
  status : c.status = j.destination
  milestones : c.milestones = (if started then [.hook .startConnecting] else []) ++
    travelling c.names.path c.seats .new j

/-- The log tells some journey, and the call to start it was not in vain. -/
def TellsLife (path : ObjectPath) (c : Connection σ ρ) : Prop :=
  ∃ started j, c.Tells path started j ∧ (started = true → c.status ≠ .new)

variable {path : ObjectPath}

namespace Tells

variable {started : Bool} {j : Journey}

/-- A stage that enters no status has nothing to tell. -/
theorem still (h : c.Tells path started j) (hstill : c.Enters [] c₁)
    (hstatus : c₁.status = c.status) : c₁.Tells path started j where
  path := by rw [hstill.names, h.path]
  life := h.life
  status := hstatus.trans h.status
  milestones := by
    rw [hstill.milestones, List.append_nil, hstill.names, hstill.seats, h.milestones]

/-- To enter a status is to go on with the journey. -/
theorem enter (h : c.Tells path started j) (hm : AllManagers (Manager.Discreet (some path)) c)
    {status : Status} {reason : StatusReason} (hroute : c.status.route status = .ok .direct)
    (henter : c.enter status reason = .ok c₁) :
    c₁.Tells path started (j ++ [(status, reason)]) := by
  have henters := enters_enter (h.path ▸ hm) henter
  refine ⟨by rw [henters.names, h.path], ?_, ?_, ?_⟩
  · rw [h.status] at hroute
    rw [List.map_append]
    exact lives_append h.life hroute
  · rw [Journey.destination_append]
    exact status_entered henter
  · rw [henters.milestones, henters.names, henters.seats, h.milestones, h.status,
      travelling_append, List.append_assoc]
    rfl

end Tells

namespace TellsLife

variable (hm : AllManagers (Manager.Discreet (some path)) c)
include hm

theorem changeStatus (h : c.TellsLife path) {status : Status} {reason : StatusReason}
    {outcome : Except TransitionError Unit}
    (hchange : c.changeStatus status reason = .ok (outcome, c₁)) : c₁.TellsLife path := by
  obtain ⟨started, j, htells, hbegun⟩ := h
  obtain rfl | ⟨hroute, henter⟩ | ⟨hnew, rfl, c', hfirst, hsecond⟩ := changeStatus_cases hchange
  · exact ⟨started, j, htells, hbegun⟩
  · refine ⟨started, _, htells.enter hm hroute henter, fun _ => ?_⟩
    rw [status_entered henter]
    exact Status.ne_new_of_route hroute
  · have hconnecting := htells.enter hm (by rw [hnew]; rfl) hfirst
    have hm' := hm.enter (Manager.discreet_lasting (some path)) (by rw [hnew]; rfl)
      (fun h => by cases h) hfirst
    refine ⟨started, _, hconnecting.enter hm' (by rw [status_entered hfirst]; rfl) hsecond,
      fun _ => ?_⟩
    rw [status_entered hsecond]
    decide

theorem connect (h : c.TellsLife path) {outcome : Except Error Unit}
    (hconnect : c.connect = .ok (outcome, c₁)) : c₁.TellsLife path := by
  rcases connect_cases hconnect with ⟨-, rfl⟩ | ⟨hnew, changed, hchange⟩
  · exact h
  · obtain ⟨started, j, htells, hbegun⟩ := h
    obtain rfl := eq_nil_of_destination htells.life (htells.status.symm.trans hnew)
    have hnot : started = false := Bool.eq_false_iff.mpr fun hs => hbegun hs hnew
    subst hnot
    have hstarted : (c.record [.hook .startConnecting]).Tells path true [] := by
      refine ⟨htells.path, htells.life, htells.status, ?_⟩
      rw [milestones_record, htells.milestones]
      rfl
    -- Whether the backend starts or fails to, a status is entered.
    have hfirst : c.outset.1 = .connecting ∨ c.outset.1 = .disconnected := by
      rcases c.outset_cases with ⟨-, heq⟩ | ⟨e, -, heq⟩
      · exact .inl (by rw [heq])
      · exact .inr (by rw [heq])
    obtain ⟨hroute, henter⟩ :=
      changeStatus_of_new (c := c.record [.hook .startConnecting]) hnew hfirst hchange
    refine ⟨true, _, hstarted.enter hm hroute henter, fun _ => ?_⟩
    rw [status_entered henter]
    exact Status.ne_new_of_route hroute

theorem disconnect (h : c.TellsLife path) {call : CallId}
    (hdisconnect : c.disconnect call = .ok c₁) : c₁.TellsLife path := by
  obtain ⟨started, j, htells, hbegun⟩ := h
  have hwaits : Tells path { c with disconnectCalls := c.disconnectCalls ++ [call] } started j :=
    htells.still (enters_nothing rfl rfl (List.append_nil _).symm (by simp)) rfl
  rcases disconnect_cases hdisconnect with ⟨-, rfl⟩ | ⟨-, -, rfl⟩ | ⟨-, -, changed, hchange⟩
  · exact ⟨started, j, htells.still (enters_nothing rfl rfl rfl (by simp [Event.isMilestone])) rfl,
      hbegun⟩
  · exact ⟨started, j, hwaits, hbegun⟩
  · exact changeStatus (c := { c with disconnectCalls := c.disconnectCalls ++ [call] }) hm
      ⟨started, j, hwaits, hbegun⟩ hchange

theorem step (h : c.TellsLife path) {op : Operation σ ρ} {out : StepOutcome σ ρ}
    (hstep : c.step op = .ok out) : out.2.TellsLife path := by
  by_cases hvital : op.isVital = true
  · cases op with
    | connect =>
      obtain ⟨⟨outcome, c'⟩, hconnect, rfl⟩ := Except.map_eq_ok.mp hstep
      exact h.connect hm hconnect
    | disconnect call =>
      obtain ⟨c', hdisconnect, rfl⟩ := Except.map_eq_ok.mp hstep
      exact h.disconnect hm hdisconnect
    | finishShutdown =>
      cases hstep
      obtain ⟨started, j, htells, hbegun⟩ := h
      have hstatus := status_finishShutdown c
      exact ⟨started, j, htells.still (enters_finishShutdown c) hstatus, by
        simpa only [quietly, hstatus] using hbegun⟩
    | changeStatus status reason =>
      obtain ⟨⟨outcome, c'⟩, hchange, rfl⟩ := Except.map_eq_ok.mp hstep
      exact h.changeStatus hm hchange
    | _ => cases hvital
  · obtain ⟨started, j, htells, hbegun⟩ := h
    have hstays := stays_step (htells.path ▸ hm) (Bool.eq_false_iff.mpr hvital) hstep
    exact ⟨started, j, htells.still hstays.enters hstays.status, fun hs =>
      hstays.status ▸ hbegun hs⟩

theorem run (h : c.TellsLife path) {ops : List (Operation σ ρ)} (hrun : c.run ops = .ok c₁) :
    c₁.TellsLife path := by
  induction ops generalizing c with
  | nil =>
    cases hrun
    exact h
  | cons op ops ih =>
    obtain ⟨out, hstep, hrest⟩ := run_cons.mp hrun
    have hm' := hm.step (Manager.discreet_lasting (some path)) hstep
    exact ih hm' (h.step hm hstep) hrest

end TellsLife

/-! ## Reading lives -/

/-- What is read off the milestones of a log is read off the log. -/
theorem filterMap_milestones {β : Type} {f : Event → Option β}
    (h : ∀ e, e.isMilestone c.names.path = false → f e = none) :
    c.milestones.filterMap f = c.log.filterMap f := by
  rw [milestones, List.filterMap_filter]
  congr 1
  funext e
  split
  · rfl
  case isFalse hnot => exact (h e (Bool.eq_false_iff.mpr hnot)).symm

/-- The status that an event tells the manager at a seat. -/
def noticeTo? (seat : Nat) : Event → Option Status
  | .notified seat' status => if seat' = seat then some status else none
  | _ => none

/-- The news of the status of the connection at `path`. -/
def news? (path : ObjectPath) : Event → Option (Status × StatusReason)
  | .signal p (.statusChanged status reason) => if p = path then some (status, reason) else none
  | _ => none

/-- The hook of the connection's life that an event calls. -/
def lifeHook? : Event → Option Hook
  | .hook (.interested _) | .hook (.uninterested _) => none
  | .hook k => some k
  | _ => none

theorem noticeTo?_eq_none {path : ObjectPath} {seat : Nat} {e : Event}
    (h : e.isMilestone path = false) : noticeTo? seat e = none := by
  cases e <;> first | rfl | cases h

theorem news?_eq_none {path : ObjectPath} {e : Event} (h : e.isMilestone path = false) :
    news? path e = none := by
  cases e with
  | signal p s =>
    cases s with
    | statusChanged status reason => exact if_neg (beq_eq_false_iff_ne.mp h)
    | _ => rfl
  | _ => rfl

theorem lifeHook?_eq_none {path : ObjectPath} {e : Event} (h : e.isMilestone path = false) :
    lifeHook? e = none := by
  cases e with
  | hook k => cases k <;> first | rfl | cases h
  | _ => rfl

/-- The statuses of which the manager at a seat was told. -/
def noticesTo (c : Connection σ ρ) (seat : Nat) : List Status := c.log.filterMap (noticeTo? seat)

/-- The statuses that were signalled. -/
def news (c : Connection σ ρ) : Journey := c.log.filterMap (news? c.names.path)

theorem filterMap_notices (n : Nat) (status : Status) (seat : Nat) :
    ((List.range n).map (.notified · status)).filterMap (noticeTo? seat) =
      if seat < n then [status] else [] := by
  induction n with
  | zero => rfl
  | succ n ih =>
    rw [List.range_succ, List.map_append, List.filterMap_append, ih]
    by_cases heq : n = seat
    · subst heq
      simp [noticeTo?]
    · have hlt : seat < n + 1 ↔ seat < n := by omega
      simp [noticeTo?, heq, hlt]

theorem noticesTo_entering (path : ObjectPath) {n seat : Nat} (hseat : seat < n)
    (source target : Status) (reason : StatusReason) :
    (entering path (List.range n) source target reason).filterMap (noticeTo? seat) = [target] := by
  have hhooks : ∀ hooks : List Hook, (hooks.map .hook).filterMap (noticeTo? seat) = [] := by
    simp [noticeTo?]
  have hend : (if target = .disconnected then [.hook .shutDown] else []).filterMap
      (noticeTo? seat) = [] := by
    split <;> rfl
  rw [entering, List.filterMap_append, List.filterMap_append, hend, filterMap_notices,
    if_pos hseat, List.filterMap_cons, hhooks]
  rfl

theorem news_entering (path : ObjectPath) (seats : List Nat) (source target : Status)
    (reason : StatusReason) :
    (entering path seats source target reason).filterMap (news? path) = [(target, reason)] := by
  have hhooks : ∀ hooks : List Hook, (hooks.map .hook).filterMap (news? path) = [] := by
    simp [news?]
  have hnotices : (seats.map (.notified · target)).filterMap (news? path) = [] := by
    simp [news?]
  have hend : (if target = .disconnected then [.hook .shutDown] else []).filterMap (news? path) =
      [] := by
    split <;> rfl
  rw [entering, List.filterMap_append, List.filterMap_append, hend, hnotices, List.filterMap_cons,
    hhooks]
  simp [news?]

/-- What every status leaves behind once is left behind by a journey as often as it has statuses. -/
theorem filterMap_travelling {β : Type} {f : Event → Option β} {g : Status × StatusReason → β}
    {path : ObjectPath} {seats : List Nat}
    (h : ∀ source step, (entering path seats source step.1 step.2).filterMap f = [g step])
    (source : Status) (j : Journey) : (travelling path seats source j).filterMap f = j.map g := by
  induction j generalizing source with
  | nil => rfl
  | cons step j ih =>
    rw [travelling, List.filterMap_append, h, ih]
    rfl

/-- The hooks of its life that the connection has called. -/
def lifeHooks (c : Connection σ ρ) : List Hook := c.log.filterMap lifeHook?

/-- The hooks that are called when statuses are entered one after the other. -/
def hooksAlong : List Status → List Hook
  -- A connection that never tried to connect is not told that it is disconnected.
  | [.disconnected] => [.shutDown]
  | statuses => statuses.flatMap fun
    | .new => []
    | .connecting => [.connecting]
    | .connected => [.connected]
    | .disconnected => [.disconnected, .shutDown]

theorem lifeHooks_entering (path : ObjectPath) (seats : List Nat) (source target : Status)
    (reason : StatusReason) :
    (entering path seats source target reason).filterMap lifeHook? =
      (hookFor source target).toList ++ if target = .disconnected then [.shutDown] else [] := by
  have hnotices : (seats.map (Event.notified · target)).filterMap lifeHook? = [] := by
    simp [lifeHook?]
  rw [entering, List.filterMap_append, List.filterMap_append, hnotices, List.append_nil,
    List.filterMap_cons]
  cases source <;> cases target <;> rfl

theorem lifeHooks_travelling (path : ObjectPath) (seats : List Nat) {j : Journey}
    (hlife : j.map Prod.fst ∈ lives) :
    (travelling path seats .new j).filterMap lifeHook? = hooksAlong (j.map Prod.fst) := by
  rcases j with _ | ⟨⟨s₁, r₁⟩, _ | ⟨⟨s₂, r₂⟩, _ | ⟨⟨s₃, r₃⟩, _ | ⟨_, _⟩⟩⟩⟩
  all_goals
    simp only [travelling, List.filterMap_append, lifeHooks_entering]
    simp only [List.map_cons, List.map_nil, lives, List.mem_cons, List.not_mem_nil, or_false,
      List.cons.injEq, reduceCtorEq, and_false, and_true, false_or] at hlife
  · rfl
  · rcases hlife with rfl | rfl <;> rfl
  · rcases hlife with ⟨rfl, rfl⟩ | ⟨rfl, rfl⟩ <;> rfl
  · obtain ⟨rfl, rfl, rfl⟩ := hlife
    rfl

/-! ## Runs -/

/-- A new connection has no life yet. -/
theorem tellsLife_new (backend : Backend) (config : Config) (tables : HandleTables)
    (plans : List (ManagerPlan σ ρ)) :
    (new backend config tables plans).TellsLife (new backend config tables plans).names.path :=
  ⟨false, [], ⟨rfl, by decide, rfl, rfl⟩, nofun⟩

/-- The managers of a new connection are discreet if those of the application's own are. -/
theorem discreet_new {backend : Backend} {config : Config} {tables : HandleTables}
    {plans : List (ManagerPlan σ ρ)}
    (hdiscreet : ∀ b state, .custom b state ∈ plans → b.Discreet (some path)) :
    AllManagers (Manager.Discreet (some path)) (new backend config tables plans) :=
  .of_behaviours (fun b state hplan _ => hdiscreet b state hplan) fun _ _ _ => trivial

/-- The log of every run tells the life of the connection. The statuses that are signalled are at
most connecting and connected in this order, and then nothing but disconnected; the status is the
last of them. Every manager is told of the same statuses, each after its signal and after the hook
of the backend, which is called once for each, save that a connection that was still new is not told
that it is disconnected. The backend is called to shut down at the end of the one step in which the
connection becomes disconnected, and to start at most once. A change of status that is refused, or
one to the status that the connection has, does nothing. -/
theorem run_tells_life (backend : Backend) (config : Config) (tables : HandleTables)
    (plans : List (ManagerPlan σ ρ))
    (hdiscreet : ∀ b state, .custom b state ∈ plans →
      b.Discreet (some (new backend config tables plans).names.path))
    {ops : List (Operation σ ρ)} {c : Connection σ ρ}
    (hrun : (new backend config tables plans).run ops = .ok c) :
    (∃ started : Bool, ∃ j : Journey,
      j.map Prod.fst ∈ lives ∧ c.status = j.destination ∧ c.news = j ∧
        c.milestones = (if started then [.hook .startConnecting] else []) ++
          travelling c.names.path c.seats .new j ∧
        (∀ seat ∈ c.seats, c.noticesTo seat = j.map Prod.fst) ∧
        c.lifeHooks = (if started then [.startConnecting] else []) ++
          hooksAlong (j.map Prod.fst)) ∧
      (∀ status reason refusal c', c.step (.changeStatus status reason) = .ok (.error refusal, c') →
        c' = c) ∧
      ∀ reason, c.step (.changeStatus c.status reason) = .ok (.ok .nothing, c) := by
  obtain ⟨started, j, htells, -⟩ :=
    (tellsLife_new backend config tables plans).run (discreet_new hdiscreet) hrun
  -- The call to start is neither news nor a notice.
  have hread : ∀ {β : Type} {f : Event → Option β} (l : List β),
      (∀ e, e.isMilestone c.names.path = false → f e = none) →
      (travelling c.names.path c.seats .new j).filterMap f = l →
      c.log.filterMap f = (if started then [.hook .startConnecting] else []).filterMap f ++ l := by
    intro β f l hf hl
    rw [← filterMap_milestones hf, htells.milestones, List.filterMap_append, hl]
  refine ⟨⟨started, j, htells.life, htells.status, ?_, htells.milestones, fun seat hseat => ?_, ?_⟩,
    fun status reason refusal c' h => ?_, fun reason => ?_⟩
  · refine (hread j (fun e he => ?_) ?_).trans ?_
    · exact news?_eq_none he
    · exact (filterMap_travelling (g := id) (fun source step =>
        news_entering _ _ source step.1 step.2) _ j).trans (List.map_id j)
    · cases started <;> rfl
  · refine (hread (j.map Prod.fst) (fun e he => ?_) ?_).trans ?_
    · exact noticeTo?_eq_none he
    · exact filterMap_travelling (fun source step =>
        noticesTo_entering _ (List.mem_range.mp hseat) source step.1 step.2) _ j
    · cases started <;> rfl
  · refine (hread _ (fun e he => ?_) (lifeHooks_travelling _ _ htells.life)).trans ?_
    · exact lifeHook?_eq_none he
    · cases started <;> rfl
  · obtain ⟨⟨outcome, c''⟩, hchange, h⟩ := Except.map_eq_ok.mp h
    cases outcome with
    | error e =>
      cases h
      exact eq_of_changeStatus_error hchange
    | ok _ => cases h
  · simp only [step, changeStatus_self]
    rfl

/-- A contact list, and a manager that follows an empty script. -/
def listAndScript : List (ManagerPlan ScriptedManager MemoryRoster) :=
  [.contacts (MemoryRoster.server ⟨true, true, false, true, .editable .native⟩ [] false) .empty,
    .custom ScriptedManager.behaviour fun path => ⟨1, path, [], [], []⟩]

/-- A scripted manager does nothing but report. -/
theorem report_of_scripted {m : ScriptedManager} {r : ChannelRequest} {e : Effect}
    (he : e ∈ (ScriptedManager.behaviour.answer m r).effects) : ∃ report, e = .report report := by
  have hrespond : ∀ e ∈ (m.respond r).effects, ∃ report, e = .report report := by
    intro e he
    unfold ScriptedManager.respond at he
    cases hact : m.actFor r <;> simp [hact, ScriptedManager.refusal] at he <;> exact ⟨_, he⟩
  unfold Behaviour.answer at he
  cases hmethod : r.method <;> rw [hmethod] at he <;> exact hrespond e he

theorem discreet_scripted (path : ObjectPath) : ScriptedManager.behaviour.Discreet (some path) := by
  refine ⟨fun state r e he p status reason _ hforged => ?_, fun state status => by
    simp [ScriptedManager.behaviour]⟩
  obtain ⟨report, hreport⟩ := report_of_scripted he
  cases hforged.symm.trans hreport

theorem discreet_listAndScript (path : ObjectPath) (b : Behaviour ScriptedManager)
    (state : ObjectPath → ScriptedManager) (h : .custom b state ∈ listAndScript) :
    b.Discreet (some path) := by
  obtain ⟨rfl, -⟩ : b = ScriptedManager.behaviour ∧ _ := by simpa [listAndScript] using h
  exact discreet_scripted path

/-- A connection with these managers. -/
def listening : Connection ScriptedManager MemoryRoster :=
  .new ⟨"sample", "account", [], [], none, false, fun _ _ _ => none⟩ .standard
    ⟨.onDemand .contact, none, some (.onDemand .list), some (.onDemand .group)⟩ listAndScript

/-- A whole life, with some calls that come too late or twice. -/
def wholeLife : List (Operation ScriptedManager MemoryRoster) :=
  [.connect, .connect, .changeStatus .connected .requested, .setSelf (.id "user"),
    .changeStatus .connected .requested, .changeStatus .connecting .networkError,
    .contacts 0 .received, .disconnect ⟨1⟩, .finishShutdown, .disconnect ⟨2⟩,
    .changeStatus .connected .requested]

/-- Both managers are told of the three statuses that are signalled. -/
theorem wholeLife_told :
    ∃ c, listening.run wholeLife = .ok c ∧
      c.news = [(.connecting, .requested), (.connected, .requested), (.disconnected, .requested)] ∧
      (∀ seat ∈ [0, 1], c.noticesTo seat = [.connecting, .connected, .disconnected]) ∧
      c.status = .disconnected := by
  have heval : ((listening.run wholeLife).toOption.any fun c =>
      c.news = [(.connecting, .requested), (.connected, .requested), (.disconnected, .requested)] &&
        c.managers.length = 2) = true := by
    decide +kernel
  obtain ⟨c, hrun, hc⟩ := Except.eq_ok_of_any heval
  rw [Bool.and_eq_true, decide_eq_true_iff, decide_eq_true_iff] at hc
  obtain ⟨⟨started, j, -, hstatus, hnews, -, hnotices, -⟩, -⟩ :=
    run_tells_life _ _ _ _ (discreet_listAndScript _) hrun
  rw [hc.1] at hnews
  subst hnews
  refine ⟨c, hrun, hc.1, fun seat hseat => hnotices seat ?_, hstatus⟩
  rw [seats, hc.2]
  exact hseat

end Connection

end Telepathy

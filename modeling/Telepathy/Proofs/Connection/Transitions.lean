import Telepathy.Connection.Lifecycle
import Telepathy.Proofs.Fallible

set_option autoImplicit false

/-!
# What an operation on the life of a connection comes to

To connect, to disconnect and to change the status all come down to entering statuses. For each of
these operations there is one lemma that says which, under what circumstances, and what else is done
before; whatever is proved of these operations is proved by these cases.
-/

namespace Telepathy

namespace Status

/-- Only going from new to connected leads through another status. -/
theorem route_viaConnecting {source target : Status}
    (h : source.route target = .ok .viaConnecting) : source = .new ∧ target = .connected := by
  cases source <;> cases target <;> simp_all [route]

/-- Nothing leads to being new. -/
theorem ne_new_of_route {source target : Status} (h : source.route target = .ok .direct) :
    target ≠ .new := by
  rintro rfl
  cases source <;> simp [route] at h

/-- Nothing leads away from being disconnected. -/
theorem ne_disconnected_of_route {source target : Status} (h : source.route target = .ok .direct) :
    source ≠ .disconnected := by
  rintro rfl
  cases target <;> simp [route] at h

end Status

namespace Connection

variable {σ ρ : Type} {c c₁ : Connection σ ρ}

/-! ## Changing the status -/

section ChangeStatus

variable {status : Status} {reason : StatusReason} {outcome : Except TransitionError Unit}

theorem route_of_checkChange {route : Route} (h : c.checkChange status = .ok route) :
    c.status.route status = .ok route := by
  obtain ⟨route', hroute, h⟩ := Except.bind_eq_ok.mp h
  split at h <;> cases h
  exact hroute

/-- No connection gets to be connected without a local user. -/
theorem isSome_self_of_checkChange {route : Route} (h : c.checkChange .connected = .ok route)
    (hroute : route ≠ .stay) : c.self.isSome = true := by
  obtain ⟨route', -, h⟩ := Except.bind_eq_ok.mp h
  split at h
  case isTrue => cases h
  case isFalse hcheck =>
    cases h
    have hself : c.hasValidSelf = true := by simpa [hroute] using hcheck
    cases hc : c.self with
    | none => simp [hasValidSelf, hc] at hself
    | some h => rfl

/-- What a change of status comes to: nothing is done, or one status or two are entered. -/
theorem changeStatus_eq_ok (h : c.changeStatus status reason = .ok (outcome, c₁)) :
    c₁ = c ∨ c.checkChange status = .ok .direct ∧ c.enter status reason = .ok c₁ ∨
      c.checkChange status = .ok .viaConnecting ∧
        ∃ c', c.enter .connecting reason = .ok c' ∧ c'.enter status reason = .ok c₁ := by
  unfold changeStatus at h
  split at h
  · cases h
    exact .inl rfl
  · cases h
    exact .inl rfl
  case h_3 hcheck =>
    obtain ⟨c', henter, h⟩ := Except.bind_eq_ok.mp h
    cases h
    exact .inr (.inl ⟨hcheck, henter⟩)
  case h_4 hcheck =>
    obtain ⟨c', hfirst, h⟩ := Except.bind_eq_ok.mp h
    obtain ⟨c'', hsecond, h⟩ := Except.bind_eq_ok.mp h
    cases h
    obtain ⟨-, rfl⟩ := Status.route_viaConnecting (route_of_checkChange hcheck)
    exact .inr (.inr ⟨hcheck, c', hfirst, hsecond⟩)

/-- The same by the statuses that lead to each other. -/
theorem changeStatus_cases (h : c.changeStatus status reason = .ok (outcome, c₁)) :
    c₁ = c ∨ c.status.route status = .ok .direct ∧ c.enter status reason = .ok c₁ ∨
      c.status = .new ∧ status = .connected ∧
        ∃ c', c.enter .connecting reason = .ok c' ∧ c'.enter .connected reason = .ok c₁ := by
  rcases changeStatus_eq_ok h with rfl | ⟨hcheck, henter⟩ | ⟨hcheck, c', hfirst, hsecond⟩
  · exact .inl rfl
  · exact .inr (.inl ⟨route_of_checkChange hcheck, henter⟩)
  · obtain ⟨hnew, rfl⟩ := Status.route_viaConnecting (route_of_checkChange hcheck)
    exact .inr (.inr ⟨hnew, rfl, c', hfirst, hsecond⟩)

/-- A new connection enters the status that it is to have first. -/
theorem changeStatus_of_new (hnew : c.status = .new)
    (hstatus : status = .connecting ∨ status = .disconnected)
    (h : c.changeStatus status reason = .ok (outcome, c₁)) :
    c.status.route status = .ok .direct ∧ c.enter status reason = .ok c₁ := by
  have hroute : c.status.route status = .ok .direct := by
    rw [hnew]
    rcases hstatus with rfl | rfl <;> rfl
  have hcheck : c.checkChange status = .ok .direct := by
    unfold checkChange
    rw [hroute]
    rcases hstatus with rfl | rfl <;> rfl
  simp only [changeStatus, hcheck] at h
  obtain ⟨c', henter, h⟩ := Except.bind_eq_ok.mp h
  cases h
  exact ⟨hroute, henter⟩

/-- A change that is refused changes nothing. -/
theorem eq_of_changeStatus_error {e : TransitionError}
    (h : c.changeStatus status reason = .ok (.error e, c₁)) : c₁ = c := by
  unfold changeStatus at h
  split at h
  · cases h
    rfl
  · cases h
  · obtain ⟨c', -, h⟩ := Except.bind_eq_ok.mp h
    cases h
  · obtain ⟨c', -, h⟩ := Except.bind_eq_ok.mp h
    obtain ⟨c'', -, h⟩ := Except.bind_eq_ok.mp h
    cases h

/-- Nor does a change to the status that the connection has. -/
theorem changeStatus_self (c : Connection σ ρ) (reason : StatusReason) :
    c.changeStatus c.status reason = .ok (.ok (), c) := by
  have hroute : c.status.route c.status = .ok .stay := if_pos rfl
  have hcheck : c.checkChange c.status = .ok .stay := by
    unfold checkChange
    rw [hroute]
    exact if_neg fun h => h.2.1 rfl
  simp only [changeStatus, hcheck]
  rfl

end ChangeStatus

/-! ## Connecting and disconnecting -/

/-- The status that connecting leads to, and why. -/
def outset (c : Connection σ ρ) : Status × StatusReason :=
  match c.backend.startFailure with
  | some e => (.disconnected, e.statusReason)
  | none => (.connecting, .requested)

theorem outset_cases (c : Connection σ ρ) :
    c.backend.startFailure = none ∧ c.outset = (.connecting, .requested) ∨
      ∃ e, c.backend.startFailure = some e ∧ c.outset = (.disconnected, e.statusReason) := by
  unfold outset
  cases hfailure : c.backend.startFailure with
  | none => exact .inl ⟨rfl, rfl⟩
  | some e => exact .inr ⟨e, rfl, rfl⟩

/-- Only a new connection connects; it has the backend start, and changes its status. -/
theorem connect_cases {outcome : Except Error Unit} (h : c.connect = .ok (outcome, c₁)) :
    c.status ≠ .new ∧ c₁ = c ∨
      c.status = .new ∧ ∃ changed, (c.record [.hook .startConnecting]).changeStatus
        c.outset.1 c.outset.2 = .ok (changed, c₁) := by
  unfold Connection.connect at h
  split at h
  case isTrue hnew =>
    cases h
    exact .inl ⟨hnew, rfl⟩
  case isFalse hnew =>
    refine .inr ⟨Decidable.not_not.mp hnew, ?_⟩
    unfold outset
    dsimp only at h
    split at h
    case h_1 e hfailure =>
      obtain ⟨⟨changed, c'⟩, hchange, h⟩ := Except.bind_eq_ok.mp h
      cases h
      have hfailed : c.backend.startFailure = some e := hfailure
      simp only [hfailed]
      exact ⟨changed, hchange⟩
    case h_2 hfailure =>
      obtain ⟨⟨changed, c'⟩, hchange, h⟩ := Except.bind_eq_ok.mp h
      cases h
      have hstarts : c.backend.startFailure = none := hfailure
      simp only [hstarts]
      exact ⟨changed, hchange⟩

/-- Who asks to disconnect is answered at once if the shutdown is over, and waits otherwise; if the
connection is not disconnected yet, it becomes so. -/
theorem disconnect_cases {call : CallId} (h : c.disconnect call = .ok c₁) :
    c.shutDown = true ∧ c₁ = c.answer call (.returned .done) ∨
      c.shutDown = false ∧ c.status = .disconnected ∧
        c₁ = { c with disconnectCalls := c.disconnectCalls ++ [call] } ∨
      c.shutDown = false ∧ c.status ≠ .disconnected ∧ ∃ changed,
        { c with disconnectCalls := c.disconnectCalls ++ [call] }.changeStatus
          .disconnected .requested = .ok (changed, c₁) := by
  unfold Connection.disconnect at h
  split at h
  case isTrue hover =>
    cases h
    exact .inl ⟨hover, rfl⟩
  case isFalse hover =>
    have hover : c.shutDown = false := Bool.eq_false_iff.mpr hover
    dsimp only at h
    split at h
    case isTrue hgone =>
      cases h
      exact .inr (.inl ⟨hover, hgone, rfl⟩)
    case isFalse hgone =>
      obtain ⟨⟨changed, c'⟩, hchange, h⟩ := Except.bind_eq_ok.mp h
      cases h
      exact .inr (.inr ⟨hover, hgone, changed, hchange⟩)

end Connection

end Telepathy

import Telepathy.Proofs.Connection.Departures
import Telepathy.Proofs.Connection.Resubmission

set_option autoImplicit false

/-!
# Offering a request

Managers are asked one after the other until one accepts. Whether a manager accepts depends on
nothing but the manager and the request, and nobody changes a manager before it is asked; so it is
known from the start how far an offer goes. What is not known is whether somebody reports on the
request meanwhile. It is in flight, so one manager may do so, at whatever position, and accept or
decline all the same.
-/

namespace Telepathy

variable {σ ρ : Type}

/-- The entry point for requests of a method. -/
def Behaviour.entry (b : Behaviour σ) : RequestMethod → σ → ChannelRequest → Response σ
  | .create => b.create
  | .ensure => b.ensure
  | .legacy _ => b.legacy

theorem Behaviour.answer_eq_entry (b : Behaviour σ) (state : σ) (r : ChannelRequest) :
    b.answer state r = b.entry r.method state r := by
  unfold answer entry
  cases r.method <;> rfl

/-- Whether a manager takes charge of a request. -/
def Manager.accepts (r : ChannelRequest) : Manager σ ρ → Bool
  | .custom b state => (b.answer state r).offer = .accepted
  | .contacts _ _ _ =>
    r.channelType = Property.contactListType ∧ (r.entity = .list ∨ r.entity = .group)

/-- A manager accepts or declines whatever the tables are. -/
theorem Manager.offer_fst (m : Manager σ ρ) (tables : HandleTables) (r : ChannelRequest) :
    (m.offer tables r).1 = if m.accepts r then .accepted else .declined := by
  cases m with
  | custom b state =>
    simp only [Manager.offer, accepts, decide_eq_true_eq]
    cases (b.answer state r).offer <;> rfl
  | contacts server list data =>
    by_cases htype : r.channelType = Property.contactListType
    · cases hentity : r.entity <;> simp [Manager.offer, ContactScene.offer, accepts, htype, hentity]
    · simp [Manager.offer, ContactScene.offer, accepts, htype]

namespace Connection

variable {c c₁ before after : Connection σ ρ} {request : ChannelRequest} {seat k : Nat} {o : Offer}

/-- The managers that hear of a request: all up to the first that accepts it. -/
def hearers (c : Connection σ ρ) (request : ChannelRequest) : List Nat :=
  c.seats.take (c.managers.findIdx (·.accepts request) + 1)

/-- Everybody before the manager at a seat was asked and declined, and now it is its turn. -/
structure ComesTo (c : Connection σ ρ) (request : ChannelRequest) (seat : Nat) (m : Manager σ ρ)
    (before : Connection σ ρ) : Prop where
  declined : c.offerTo request (List.range seat) = .ok (.declined, before)
  manager : before.managers[seat]? = some m

/-- The manager at a seat reports on a request while it is asked for it. -/
def ReportedAt (c : Connection σ ρ) (request : ChannelRequest) (seat : Nat) : Prop :=
  ∃ m before, c.ComesTo request seat m before ∧
    request.token ∈ reportedTokens (m.offer before.tables request).2.effects

/-- Effects whose reports can be carried out: they name different requests in flight, and pass no
old channel off as new. -/
structure Reportable (c : Connection σ ρ) (effects : List Effect) : Prop where
  nodup : (reportedTokens effects).Nodup
  pending : ∀ token ∈ reportedTokens effects, c.ledger.isPending token = true
  reused : ∀ token ∈ reusedTokens effects, ∀ p,
    c.ledger.inFlight.get? token = some p → p.method ≠ .create

/-! ## One manager after the other -/

theorem offerTo_append (request : ChannelRequest) (seats seats' : List Nat)
    (c : Connection σ ρ) :
    c.offerTo request (seats ++ seats') = (c.offerTo request seats).bind fun x =>
      match x with
      | (.accepted, c') => .ok (.accepted, c')
      | (.declined, c') => c'.offerTo request seats' := by
  induction seats generalizing c with
  | nil => rfl
  | cons seat seats ih =>
    simp only [List.cons_append, offerTo, bind, Except.bind, pure, Except.pure]
    cases c.offerAt request seat with
    | error crash => rfl
    | ok out =>
      obtain ⟨o, c'⟩ := out
      cases o with
      | accepted => rfl
      | declined => exact ih c'

theorem offerTo_one (c : Connection σ ρ) (request : ChannelRequest) (seat : Nat) :
    c.offerTo request [seat] = c.offerAt request seat := by
  simp only [offerTo, bind, Except.bind, pure, Except.pure]
  cases c.offerAt request seat with
  | error crash => rfl
  | ok out =>
    obtain ⟨o, c'⟩ := out
    cases o <;> rfl

/-- One more manager is asked, unless somebody before it has accepted. -/
theorem offerTo_range_succ (c : Connection σ ρ) (request : ChannelRequest) (k : Nat) :
    c.offerTo request (List.range (k + 1)) = (c.offerTo request (List.range k)).bind fun x =>
      match x with
      | (.accepted, c') => .ok (.accepted, c')
      | (.declined, c') => c'.offerAt request k := by
  simp only [List.range_succ, offerTo_append, offerTo_one]

/-- An offer that was not declined ended with the manager that was asked last. -/
theorem offerTo_ended {x : Except Crash (Offer × Connection σ ρ)}
    (h : c.offerTo request (List.range k) = x) (hx : ∀ c', x ≠ .ok (.declined, c')) :
    ∃ seat < k, ∃ before, c.offerTo request (List.range seat) = .ok (.declined, before) ∧
      before.offerAt request seat = x := by
  induction k with
  | zero => exact absurd h.symm (hx c)
  | succ k ih =>
    have hlonger : (∃ seat < k, ∃ before,
        c.offerTo request (List.range seat) = .ok (.declined, before) ∧
          before.offerAt request seat = x) →
      ∃ seat < k + 1, ∃ before, c.offerTo request (List.range seat) = .ok (.declined, before) ∧
          before.offerAt request seat = x :=
      fun ⟨seat, hseat, hrest⟩ => ⟨seat, Nat.lt_succ_of_lt hseat, hrest⟩
    rw [offerTo_range_succ] at h
    cases hfirst : c.offerTo request (List.range k) with
    | error crash =>
      rw [hfirst] at h ih
      exact hlonger (ih h)
    | ok out =>
      obtain ⟨o, before⟩ := out
      rw [hfirst] at h ih
      cases o with
      | accepted => exact hlonger (ih h)
      | declined => exact ⟨k, Nat.lt_succ_self k, before, hfirst, h⟩

/-- One manager is asked: it answers, its turn is carried out, and nobody else changes. -/
theorem offerAt_eq_ok {m : Manager σ ρ} (hm : c.managers[seat]? = some m)
    (h : c.offerAt request seat = .ok (o, c₁)) :
    (m.accepts request = true ↔ o = .accepted) ∧
      c₁.ledger = c.ledger.without (reportedTokens (m.offer c.tables request).2.effects) ∧
      c₁.managers = c.managers.set seat (m.offer c.tables request).2.manager ∧
      c₁.offers = c.offers ++ [(seat, request)] ∧
      (reportedTokens (m.offer c.tables request).2.effects).Nodup ∧
      ∀ token ∈ reportedTokens (m.offer c.tables request).2.effects,
        c.ledger.isPending token = true := by
  rcases offerAt_cases h with ⟨hnone, -, -⟩ | ⟨m', hm', ho, hledger, hmanagers, hoffers⟩
  · cases hnone.symm.trans hm
  · cases hm'.symm.trans hm
    have hturn : (c.record [.offered seat request]).takeTurn seat (m.offer c.tables request).2 =
        .ok c₁ := by
      unfold offerAt at h
      rw [hm] at h
      obtain ⟨c', hturn, heq⟩ := Except.map_eq_ok.mp h
      cases heq
      exact hturn
    have haccepts : m.accepts request = true ↔ o = .accepted := by
      rw [ho, m.offer_fst]
      cases m.accepts request <;> simp
    have hreported := reported_of_takeTurn hturn
    exact ⟨haccepts, hledger, hmanagers, hoffers, hreported⟩

/-- A manager whose reports can be carried out is asked without a crash. -/
theorem offerAt_isOk {m : Manager σ ρ} (hm : c.managers[seat]? = some m)
    (h : c.Reportable (m.offer c.tables request).2.effects) :
    ∃ o c₁, c.offerAt request seat = .ok (o, c₁) := by
  obtain ⟨c₁, hturn⟩ := takeTurn_isOk (c := c.record [.offered seat request]) seat
    (m.offer c.tables request).2 h.nodup h.pending h.reused
  refine ⟨(m.offer c.tables request).1, c₁, ?_⟩
  rw [offerAt, hm]
  simp only [hturn]
  rfl

/-! ## How far an offer goes -/

/-- When the first `k` managers were asked for it, a request is in flight and none of them has
reported on it, or just one of them has. -/
inductive SettledBy (c : Connection σ ρ) (request : ChannelRequest) (p : PendingRequest) (k : Nat)
    (c₁ : Connection σ ρ) : Prop
  | nobody (hp : c₁.ledger.inFlight.get? request.token = some p)
      (hnobody : ∀ seat < k, ¬ c.ReportedAt request seat) : SettledBy c request p k c₁
  | one {seat : Nat} (hnone : c₁.ledger.inFlight.get? request.token = none) (hseat : seat < k)
      (hone : ∀ seat' < k, c.ReportedAt request seat' ↔ seat' = seat) : SettledBy c request p k c₁

/-- What has become of a connection and of a request in flight when the first `k` managers were
asked for it. -/
structure Heard (c : Connection σ ρ) (request : ChannelRequest) (p : PendingRequest) (k : Nat)
    (c₁ : Connection σ ρ) : Prop where
  within : k ≤ c.managers.length
  offers : c₁.offers = c.offers ++ (List.range k).map (·, request)
  others : ∀ seat, k ≤ seat → c₁.managers[seat]? = c.managers[seat]?
  served : c.Served c₁
  /-- Each was asked as it was, and is left as it wanted to be. -/
  asked : ∀ seat m, seat < k → c.managers[seat]? = some m → ∃ before,
    c.ComesTo request seat m before ∧
      c₁.managers[seat]? = some (m.offer before.tables request).2.manager ∧
      (reportedTokens (m.offer before.tables request).2.effects).Nodup ∧
      (before.AwaitsReport request.token p ∨ ∃ seat' < seat, c.ReportedAt request seat')
  settled : c.SettledBy request p k c₁

theorem ComesTo.unique {m m' : Manager σ ρ} {before' : Connection σ ρ}
    (h : c.ComesTo request seat m before) (h' : c.ComesTo request seat m' before') :
    m = m' ∧ before = before' := by
  cases h.declined.symm.trans h'.declined
  exact ⟨Option.some.inj (h.manager.symm.trans h'.manager), rfl⟩

theorem ComesTo.reportedAt_iff {m : Manager σ ρ} (h : c.ComesTo request seat m before) :
    c.ReportedAt request seat ↔
      request.token ∈ reportedTokens (m.offer before.tables request).2.effects := by
  refine ⟨?_, fun hmem => ⟨m, before, h, hmem⟩⟩
  rintro ⟨m', before', h', hmem⟩
  obtain ⟨rfl, rfl⟩ := h.unique h'
  exact hmem

variable {p : PendingRequest}

/-- One more manager is asked, and reports on the request or does not. -/
theorem SettledBy.succ {m : Manager σ ρ} (h : c.SettledBy request p k before)
    (hcomes : c.ComesTo request k m before) (hoffer : before.offerAt request k = .ok (o, after)) :
    c.SettledBy request p (k + 1) after := by
  obtain ⟨-, hledger, -, -, -, hpending⟩ := offerAt_eq_ok hcomes.manager hoffer
  have hgone : c.ReportedAt request k → after.ledger.inFlight.get? request.token = none :=
    fun hr => by
      rw [hledger, RequestLedger.get?_without, if_pos (hcomes.reportedAt_iff.mp hr)]
  have hsame : ¬ c.ReportedAt request k → after.ledger.inFlight.get? request.token =
      before.ledger.inFlight.get? request.token := fun hr => by
    rw [hledger, RequestLedger.get?_without, if_neg (mt hcomes.reportedAt_iff.mpr hr)]
  cases h with
  | nobody hp hnobody =>
    by_cases hreported : c.ReportedAt request k
    · refine .one (hgone hreported) (Nat.lt_succ_self k) fun seat hseat => ?_
      obtain hlt | rfl := Nat.lt_succ_iff_lt_or_eq.mp hseat
      · exact ⟨fun hr => absurd hr (hnobody seat hlt), fun heq => absurd heq (Nat.ne_of_lt hlt)⟩
      · exact ⟨fun _ => rfl, fun _ => hreported⟩
    · refine .nobody ((hsame hreported).trans hp) fun seat hseat => ?_
      obtain hlt | rfl := Nat.lt_succ_iff_lt_or_eq.mp hseat
      · exact hnobody seat hlt
      · exact hreported
  | @one seat₀ hnone hseat₀ hone =>
    -- It is not in flight any more, so nobody else can report on it.
    have hreported : ¬ c.ReportedAt request k := fun hr => by
      obtain ⟨q, hq⟩ := RequestLedger.isPending_iff.mp (hpending _ (hcomes.reportedAt_iff.mp hr))
      cases hnone.symm.trans hq
    refine .one ((hsame hreported).trans hnone) (Nat.lt_succ_of_lt hseat₀) fun seat hseat => ?_
    obtain hlt | rfl := Nat.lt_succ_iff_lt_or_eq.mp hseat
    · exact hone seat hlt
    · exact ⟨fun hr => absurd hr hreported, fun heq => absurd heq (Nat.ne_of_gt hseat₀)⟩

namespace Heard

theorem zero (hp : c.ledger.inFlight.get? request.token = some p) : c.Heard request p 0 c where
  within := Nat.zero_le _
  offers := (List.append_nil _).symm
  others _ _ := rfl
  served := .refl c
  asked _ _ hseat := absurd hseat (Nat.not_lt_zero _)
  settled := .nobody hp fun _ hseat => absurd hseat (Nat.not_lt_zero _)

/-- One more manager is asked. -/
theorem succ (h : c.Heard request p k before) (hk : k < c.managers.length)
    (hdeclined : c.offerTo request (List.range k) = .ok (.declined, before))
    (hoffer : before.offerAt request k = .ok (o, after)) : c.Heard request p (k + 1) after := by
  have hm : before.managers[k]? = some c.managers[k] :=
    (h.others k (Nat.le_refl k)).trans (List.getElem?_eq_getElem hk)
  have hcomes : c.ComesTo request k c.managers[k] before := ⟨hdeclined, hm⟩
  have hlength : k < before.managers.length := (List.getElem?_eq_some_iff.mp hm).1
  obtain ⟨-, -, hmanagers, hoffers, hnodup, -⟩ := offerAt_eq_ok hm hoffer
  refine ⟨hk, ?_, fun seat hseat => ?_, h.served.trans (served_offerAt hoffer),
    fun seat m hseat hm' => ?_, h.settled.succ hcomes hoffer⟩
  · rw [hoffers, h.offers, List.range_succ, List.map_append, List.append_assoc]
    rfl
  · rw [hmanagers, List.getElem?_set_ne (Nat.ne_of_lt hseat)]
    exact h.others seat (Nat.le_of_lt hseat)
  · obtain hseat | rfl := Nat.lt_succ_iff_lt_or_eq.mp hseat
    · obtain ⟨before', hcomes', hleft, hrest⟩ := h.asked seat m hseat hm'
      refine ⟨before', hcomes', ?_, hrest⟩
      rw [hmanagers, List.getElem?_set_ne (Nat.ne_of_gt hseat)]
      exact hleft
    · obtain rfl : c.managers[seat] = m :=
        Option.some.inj ((List.getElem?_eq_getElem hk).symm.trans hm')
      refine ⟨before, hcomes, by rw [hmanagers, List.getElem?_set_self hlength], hnodup, ?_⟩
      cases h.settled with
      | nobody hp _ => exact .inl (awaitsReport_of_inFlight hp)
      | one _ hseat' hone => exact .inr ⟨_, hseat', (hone _ hseat').mpr rfl⟩

end Heard

/-- The first `k` managers have declined. -/
theorem heard_of_declined (hp : c.ledger.inFlight.get? request.token = some p)
    (hk : k ≤ c.managers.length)
    (h : c.offerTo request (List.range k) = .ok (.declined, c₁)) :
    c.Heard request p k c₁ ∧ ∀ seat < k, ∀ m, c.managers[seat]? = some m →
      m.accepts request = false := by
  induction k generalizing c₁ with
  | zero =>
    cases h
    exact ⟨.zero hp, by simp⟩
  | succ k ih =>
    rw [offerTo_range_succ] at h
    obtain ⟨⟨o, before⟩, hfirst, hlast⟩ := Except.bind_eq_ok.mp h
    cases o with
    | accepted => cases hlast
    | declined =>
      obtain ⟨hheard, hdecline⟩ := ih (Nat.le_of_lt hk) hfirst
      refine ⟨hheard.succ hk hfirst hlast, fun seat hseat m hm => ?_⟩
      obtain hseat | rfl := Nat.lt_succ_iff_lt_or_eq.mp hseat
      · exact hdecline seat hseat m hm
      · obtain ⟨haccepts, -⟩ :=
          offerAt_eq_ok ((hheard.others seat (Nat.le_refl _)).trans hm) hlast
        exact Bool.eq_false_iff.mpr fun h => nomatch haccepts.mp h

/-- An offer goes to the first manager that accepts, or to all. -/
theorem heard_of_offerTo (hp : c.ledger.inFlight.get? request.token = some p)
    (h : c.offerTo request c.seats = .ok (o, c₁)) :
    ∃ k, c.hearers request = List.range k ∧ c.Heard request p k c₁ ∧
      (o = if c.managers.any (·.accepts request) then .accepted else .declined) := by
  cases o with
  | declined =>
    obtain ⟨hheard, hdecline⟩ := heard_of_declined hp (Nat.le_refl _) h
    have hnobody : ∀ m ∈ c.managers, m.accepts request = false := fun m hm => by
      obtain ⟨seat, hseat⟩ := List.mem_iff_getElem?.mp hm
      exact hdecline seat (List.getElem?_eq_some_iff.mp hseat).1 m hseat
    refine ⟨c.managers.length, ?_, hheard, ?_⟩
    · rw [hearers, List.findIdx_eq_length.mpr hnobody, seats, List.take_of_length_le (by simp)]
    · rw [List.any_eq_false.mpr fun m hm => by simp [hnobody m hm]]
      rfl
  | accepted =>
    obtain ⟨seat, hseat, before, hfirst, hlast⟩ := offerTo_ended h (by simp)
    obtain ⟨hheard, hdecline⟩ := heard_of_declined hp (Nat.le_of_lt hseat) hfirst
    have hm : c.managers[seat]? = some c.managers[seat] := List.getElem?_eq_getElem hseat
    obtain ⟨haccepts, -⟩ := offerAt_eq_ok ((hheard.others seat (Nat.le_refl _)).trans hm) hlast
    have hfirst' : c.managers.findIdx (·.accepts request) = seat :=
      (List.findIdx_eq hseat).mpr ⟨haccepts.mpr rfl, fun j hj =>
        hdecline j hj _ (List.getElem?_eq_getElem (Nat.lt_trans hj hseat))⟩
    refine ⟨seat + 1, ?_, hheard.succ hseat hfirst hlast, ?_⟩
    · rw [hearers, hfirst', seats, List.take_range, Nat.min_eq_left hseat]
    · rw [List.any_eq_true.mpr ⟨_, List.getElem_mem hseat, haccepts.mpr rfl⟩]
      rfl

/-- Managers whose reports can be carried out are asked without a crash. -/
theorem offerTo_isOk (h : ∀ seat m before, c.ComesTo request seat m before →
      before.Reportable (m.offer before.tables request).2.effects) :
    ∃ o c₁, c.offerTo request (List.range k) = .ok (o, c₁) := by
  induction k with
  | zero => exact ⟨.declined, c, rfl⟩
  | succ k ih =>
    obtain ⟨o, before, hfirst⟩ := ih
    rw [offerTo_range_succ, hfirst]
    cases o with
    | accepted => exact ⟨.accepted, before, rfl⟩
    | declined =>
      simp only [Except.bind]
      cases hm : before.managers[k]? with
      | none => exact ⟨.declined, before, by rw [offerAt, hm]⟩
      | some m => exact offerAt_isOk hm (h k m before ⟨hfirst, hm⟩)

/-- Even if somebody breaks a promise, nobody is asked after the first manager that accepts. -/
theorem offers_within_hearers
    (hp : c.ledger.inFlight.get? request.token = some p) :
    ∃ asked, asked <+: c.hearers request ∧
      offersIn (logAfter (fun out => out.2.log) (c.offerTo request c.seats)) =
        c.offers ++ asked.map (·, request) := by
  cases hoffer : c.offerTo request c.seats with
  | ok out =>
    obtain ⟨k, hhearers, hheard, -⟩ := heard_of_offerTo hp hoffer
    exact ⟨List.range k, hhearers ▸ List.prefix_rfl, hheard.offers⟩
  | error crash =>
    obtain ⟨seat, hseat, before, hfirst, hlast⟩ := offerTo_ended hoffer (by simp)
    obtain ⟨hheard, hdecline⟩ := heard_of_declined hp (Nat.le_of_lt hseat) hfirst
    have hreached : seat ≤ c.managers.findIdx (·.accepts request) :=
      List.le_findIdx_of_not hseat fun j hj =>
        hdecline j hj _ (List.getElem?_eq_getElem (Nat.lt_trans hj hseat))
    have hasked := offers_offerAt (hheard.served.seats ▸ hseat) request
    rw [hlast] at hasked
    have htaken : c.seats.take (seat + 1) = List.range (seat + 1) := by
      rw [seats, List.take_range, Nat.min_eq_left hseat]
    refine ⟨c.seats.take (seat + 1), List.take_prefix_take_left (Nat.succ_le_succ hreached), ?_⟩
    rw [htaken, List.range_succ, List.map_append, ← List.append_assoc, ← hheard.offers]
    exact hasked

end Connection

end Telepathy

import Telepathy.Proofs.Connection.Turn
import Telepathy.Proofs.Connection.Undisturbed
import Telepathy.Proofs.ContactList.Requests

set_option autoImplicit false

/-!
# Who keeps which request

A request in flight is in the care of one manager: the last one it was offered to, which is the one
that accepted it. A contact list keeps its requests in the queues of its channels, so between
operations the queues hold exactly the requests in its care, each once. Of an application's own
manager nothing is known but that it reports on no request that it did not accept; `ReportsOwn` says
this by an account of the requests that the manager owns in each of its states.

`InCustody` is the invariant, and the laws below say that it holds across the turn of any manager,
and that a contact list's turn breaks no promise.
-/

namespace Telepathy

variable {σ ρ : Type}

/-- A manager reports only on requests that it accepted, where `own` says which these are in each of
its states: it may add a request to them only by accepting it. -/
structure Behaviour.ReportsOwn (b : Behaviour σ) (own : σ → RequestToken → Prop) : Prop where
  answer_reports : ∀ state r token, token ∈ reportedTokens (b.answer state r).effects →
    own state token ∨ token = r.token ∧ (b.answer state r).offer = .accepted
  answer_owns : ∀ state r token, own (b.answer state r).state token →
    own state token ∨ token = r.token ∧ (b.answer state r).offer = .accepted
  status_reports : ∀ state status token, token ∈ reportedTokens (b.statusChanged state status).2 →
    own state token
  status_owns : ∀ state status token, own (b.statusChanged state status).1 token → own state token

namespace Connection

variable {c c₁ c₂ : Connection σ ρ}

/-! ## Offers -/

/-- The manager in whose care a request is: the last to which it was offered. -/
def keeper? (c : Connection σ ρ) (token : RequestToken) : Option Nat :=
  (c.offers.filter fun o => o.2.token = token).getLast?.map Prod.fst

theorem keeper?_of_offers (h : c₁.offers = c.offers) (token : RequestToken) :
    c₁.keeper? token = c.keeper? token := by
  rw [keeper?, keeper?, h]

theorem offered_of_keeper? {token : RequestToken} {seat : Nat} (h : c.keeper? token = some seat) :
    ∃ o ∈ c.offers, o.2.token = token := by
  obtain ⟨o, ho, -⟩ := Option.map_eq_some_iff.mp h
  obtain ⟨hmem, htoken⟩ := List.mem_filter.mp (List.mem_of_getLast? ho)
  exact ⟨o, hmem, of_decide_eq_true htoken⟩

theorem offers_offered (c : Connection σ ρ) (seat : Nat) (r : ChannelRequest) :
    (c.record [.offered seat r]).offers = c.offers ++ [(seat, r)] := by
  rw [offers, record, List.filterMap_append, offers]
  rfl

/-- A request that is offered is in the care of the manager it is offered to. -/
theorem keeper?_offered (c : Connection σ ρ) (seat : Nat) (r : ChannelRequest)
    (token : RequestToken) :
    (c.record [.offered seat r]).keeper? token =
      if token = r.token then some seat else c.keeper? token := by
  rw [keeper?, offers_offered, List.filter_append]
  by_cases h : token = r.token
  · subst h
    simp
  · have hne : r.token ≠ token := fun heq => h heq.symm
    simp [h, hne, keeper?]

/-! ## Effects -/

theorem settle_eq_ok {r : Report} (h : c.settle r = .ok c₁) :
    c₁.ledger = c.ledger.without r.tokens ∧ c₁.managers = c.managers ∧ c₁.offers = c.offers := by
  obtain ⟨s, hs, rfl⟩ := settle_cases h
  obtain ⟨ps, -, -, hledger, -, -⟩ := RequestLedger.settle_spec hs
  refine ⟨hledger, rfl, offers_record _ fun e he seat r' heq => ?_⟩
  obtain ⟨_, _, he, -⟩ | ⟨_, _, he, -⟩ := RequestLedger.mem_settle_events hs he
  · rw [he] at heq
    cases heq
  · rw [he] at heq
    cases heq

theorem perform_eq_ok {seat : Nat} {e : Effect} (h : c.perform seat e = .ok c₁) :
    c₁.ledger = c.ledger.without e.tokens ∧ c₁.managers = c.managers ∧ c₁.offers = c.offers := by
  cases e with
  | report r => exact settle_eq_ok (Except.mapError_eq_ok.mp h)
  | signal path s =>
    cases h
    exact ⟨(RequestLedger.without_nil _).symm, rfl, offers_record c (by simp)⟩
  | called call =>
    cases h
    exact ⟨(RequestLedger.without_nil _).symm, rfl, offers_record c (by simp)⟩

theorem performAll_eq_ok {seat : Nat} {effects : List Effect}
    (h : effects.foldlM (perform seat) c = .ok c₁) :
    c₁.ledger = c.ledger.without (reportedTokens effects) ∧ c₁.managers = c.managers ∧
      c₁.offers = c.offers := by
  induction effects generalizing c with
  | nil =>
    cases h
    exact ⟨(RequestLedger.without_nil _).symm, rfl, rfl⟩
  | cons e effects ih =>
    obtain ⟨c', hfirst, hrest⟩ := Except.bind_eq_ok.mp (by rwa [List.foldlM_cons] at h)
    obtain ⟨hledger, hmanagers, hoffers⟩ := perform_eq_ok hfirst
    obtain ⟨hledger', hmanagers', hoffers'⟩ := ih hrest
    refine ⟨?_, hmanagers'.trans hmanagers, hoffers'.trans hoffers⟩
    rw [hledger', hledger, RequestLedger.without_without]
    rfl

/-- A turn takes the requests it reports on out of flight, and puts the manager in its place. -/
theorem takeTurn_eq_ok {seat : Nat} {t : Turn σ ρ} (h : c.takeTurn seat t = .ok c₁) :
    c₁.ledger = c.ledger.without (reportedTokens t.effects) ∧
      c₁.managers = c.managers.set seat t.manager ∧ c₁.offers = c.offers :=
  performAll_eq_ok h

/-- A promise that is broken in a turn was broken by the manager whose turn it is. -/
theorem seat_of_takeTurn {seat : Nat} {t : Turn σ ρ} {crash : Crash}
    (h : c.takeTurn seat t = .error crash) : crash.seat = some seat := by
  have hall : ∀ (effects : List Effect) (c : Connection σ ρ),
      effects.foldlM (perform seat) c = .error crash → crash.seat = some seat := by
    intro effects
    induction effects with
    | nil =>
      intro c h
      cases h
    | cons e effects ih =>
      intro c h
      rw [List.foldlM_cons] at h
      obtain h | ⟨c', -, h⟩ := Except.bind_eq_error.mp h
      · cases e with
        | report r =>
          simp only [perform] at h
          cases hs : c.settle r with
          | ok c' =>
            rw [hs] at h
            cases h
          | error crash' =>
            rw [hs] at h
            cases h
            rfl
        | signal path s => cases h
        | called call => cases h
      · exact ih c' h
  exact hall _ _ h

/-- Effects are carried out if they report on different requests in flight, and pass no new channel
off as an old one. -/
theorem performAll_isOk {seat : Nat} {effects : List Effect}
    (hnodup : (reportedTokens effects).Nodup)
    (hpending : ∀ token ∈ reportedTokens effects, c.ledger.isPending token = true)
    (hreused : ∀ token ∈ reusedTokens effects, ∀ p,
      c.ledger.inFlight.get? token = some p → p.method ≠ .create) :
    ∃ c₁, effects.foldlM (perform seat) c = .ok c₁ := by
  induction effects generalizing c with
  | nil => exact ⟨c, rfl⟩
  | cons e effects ih =>
    have hsplit : reportedTokens (e :: effects) = e.tokens ++ reportedTokens effects := rfl
    rw [hsplit] at hnodup hpending
    obtain ⟨hfirst, hrest, hapart⟩ := List.nodup_append.mp hnodup
    have hstep : ∃ c', c.perform seat e = .ok c' := by
      cases e with
      | report r =>
        obtain ⟨s, hs⟩ := c.ledger.settle_isOk c.names.path hfirst
          (fun token ht => hpending token (List.mem_append_left _ ht))
          (fun token channel p hr hp => hreused token
            (List.mem_filterMap.mpr ⟨_, List.mem_cons_self, by rw [hr]; rfl⟩) p hp)
        exact ⟨_, by simp only [perform, settle, hs]; rfl⟩
      | signal path s => exact ⟨_, rfl⟩
      | called call => exact ⟨_, rfl⟩
    obtain ⟨c', hc'⟩ := hstep
    obtain ⟨hledger, -, -⟩ := perform_eq_ok hc'
    have hleft : ∀ token, token ∉ e.tokens →
        c'.ledger.inFlight.get? token = c.ledger.inFlight.get? token := fun token ht => by
      rw [hledger, RequestLedger.get?_without, if_neg ht]
    obtain ⟨c₁, hc₁⟩ := ih (c := c') hrest
      (fun token ht => by
        have hout : token ∉ e.tokens := fun he => hapart token he token ht rfl
        rw [RequestLedger.isPending, SortedMap.contains, hleft token hout]
        exact hpending token (List.mem_append_right _ ht))
      (fun token ht p hp => by
        by_cases hout : token ∈ e.tokens
        · rw [hledger, RequestLedger.get?_without, if_pos hout] at hp
          cases hp
        · rw [hleft token hout] at hp
          obtain ⟨e', he', htoken⟩ := List.mem_filterMap.mp ht
          exact hreused token
            (List.mem_filterMap.mpr ⟨e', List.mem_cons_of_mem _ he', htoken⟩) p hp)
    exact ⟨c₁, by rw [List.foldlM_cons]; exact Except.bind_eq_ok.mpr ⟨c', hc', hc₁⟩⟩

theorem takeTurn_isOk (seat : Nat) (t : Turn σ ρ) (hnodup : (reportedTokens t.effects).Nodup)
    (hpending : ∀ token ∈ reportedTokens t.effects, c.ledger.isPending token = true)
    (hreused : ∀ token ∈ reusedTokens t.effects, ∀ p,
      c.ledger.inFlight.get? token = some p → p.method ≠ .create) :
    ∃ c₁, c.takeTurn seat t = .ok c₁ :=
  performAll_isOk hnodup hpending hreused

/-! ## The invariant -/

/-- What stays as it is while an operation is carried out. -/
structure Custody (σ : Type) where
  /-- The requests that the manager at a seat owns in each state. -/
  own : Nat → σ → RequestToken → Prop
  /-- Which managers are the application's own. -/
  custom : List Bool
  /-- How many tokens had been issued before. -/
  issued : Nat
  /-- In whose care each of these was. -/
  keeper : RequestToken → Option Nat

/-- Whether a request waits at a seat; the one that is being offered, `asked`, waits nowhere yet. -/
def Waits (c : Connection σ ρ) (asked : Option RequestToken) (seat : Nat) (token : RequestToken) :
    Prop :=
  c.ledger.isPending token = true ∧ c.keeper? token = some seat ∧ asked ≠ some token

instance (c : Connection σ ρ) (asked : Option RequestToken) (seat : Nat) (token : RequestToken) :
    Decidable (c.Waits asked seat token) :=
  inferInstanceAs (Decidable (_ ∧ _ ∧ _))

variable (K : Custody σ) (exact : Bool)

/-- What holds of the manager at a seat: it is in charge of what it owns, or its queues hold exactly
the requests that wait there. Of queues that are being given up nothing is said. -/
def ManagerInCustody (asked : Option RequestToken) (c : Connection σ ρ) (seat : Nat) :
    Manager σ ρ → Prop
  | .custom b state =>
    b.ReportsOwn (K.own seat) ∧
      ∀ token, K.own seat state token → c.keeper? token = some seat ∧ asked ≠ some token
  | .contacts _ list _ =>
    exact = true → ∀ token,
      list.queuedTokens.count token = if c.Waits asked seat token then 1 else 0

/-- Every request in flight is in the care of one manager. -/
structure InCustody (asked : Option RequestToken) (c : Connection σ ρ) : Prop where
  managers : ∀ seat m, c.managers[seat]? = some m → ManagerInCustody K exact asked c seat m
  custom : c.managers.map Manager.isCustom = K.custom
  offered : ∀ o ∈ c.offers, o.2.token.number ≤ c.ledger.tokens
  kept : ∀ token, c.ledger.isPending token = true →
    asked = some token ∨ ∃ seat, c.keeper? token = some seat
  later : K.issued ≤ c.ledger.tokens
  stable : ∀ token, token.number ≤ K.issued → c.keeper? token = K.keeper token

variable {K exact} {asked asked' : Option RequestToken}

theorem ManagerInCustody.transfer {seat : Nat} {m : Manager σ ρ}
    (h : ManagerInCustody K exact asked c seat m)
    (hheld : ∀ token, c.keeper? token = some seat → asked ≠ some token →
      c₁.keeper? token = some seat ∧ asked' ≠ some token)
    (hwaits : ∀ token, c₁.Waits asked' seat token ↔ c.Waits asked seat token) :
    ManagerInCustody K exact asked' c₁ seat m := by
  cases m with
  | custom b state =>
    refine ⟨h.1, fun token hown => ?_⟩
    obtain ⟨hkeeper, hasked⟩ := h.2 token hown
    exact hheld token hkeeper hasked
  | contacts server list data =>
    intro hexact token
    rw [h hexact token]
    by_cases hw : c.Waits asked seat token
    · rw [if_pos hw, if_pos ((hwaits token).mpr hw)]
    · rw [if_neg hw, if_neg fun hw' => hw ((hwaits token).mp hw')]

namespace InCustody

/-- What nobody notices keeps all requests in custody. -/
theorem frame (h : InCustody K exact asked c) (hc : c.Undisturbed c₁) :
    InCustody K exact asked c₁ := by
  have hkeeper := keeper?_of_offers hc.offers
  have hpending : c₁.ledger.isPending = c.ledger.isPending := by
    funext token
    rw [RequestLedger.isPending, hc.inFlight]
    rfl
  refine ⟨fun seat m hm => ?_, hc.managers ▸ h.custom, ?_, fun token ht => ?_, hc.tokens ▸ h.later,
    fun token ht => (hkeeper token).trans (h.stable token ht)⟩
  · refine (h.managers seat m (hc.managers ▸ hm)).transfer
      (fun token hk ha => ⟨(hkeeper token).trans hk, ha⟩) fun token => ?_
    rw [Waits, Waits, hkeeper, hpending]
  · rw [hc.offers, hc.tokens]
    exact h.offered
  · rw [hpending] at ht
    rw [hkeeper]
    exact h.kept token ht

theorem isCustom (h : InCustody K exact asked c) {seat : Nat} {m : Manager σ ρ}
    (hm : c.managers[seat]? = some m) : K.custom[seat]? = some m.isCustom := by
  rw [← h.custom, List.getElem?_map, hm]
  rfl

/-- A manager of the same kind takes no seat away from the others. -/
theorem map_isCustom_set {managers : List (Manager σ ρ)} {seat : Nat} {m m' : Manager σ ρ}
    (hm : managers[seat]? = some m) (hkind : m'.isCustom = m.isCustom) :
    (managers.set seat m').map Manager.isCustom = managers.map Manager.isCustom := by
  refine List.ext_getElem? fun i => ?_
  rw [List.map_set, List.getElem?_set, List.length_map]
  by_cases hi : seat = i
  · subst hi
    rw [if_pos rfl, if_pos (List.getElem?_eq_some_iff.mp hm).1, List.getElem?_map, hm, hkind]
    rfl
  · rw [if_neg hi]

/-- A turn in which a manager reports on requests in its care keeps all others in custody. -/
theorem turn (h : InCustody K exact asked c) {seat : Nat} {m : Manager σ ρ} {t : Turn σ ρ}
    (hm : c.managers[seat]? = some m) (hturn : c.takeTurn seat t = .ok c₁)
    (hkind : t.manager.isCustom = m.isCustom)
    (hreports : ∀ token ∈ reportedTokens t.effects, c.keeper? token = some seat)
    (hasked : asked' = asked ∨
      asked' = none ∧ ∀ token, asked = some token → c.keeper? token = some seat)
    (hmine : ManagerInCustody K exact asked' c₁ seat t.manager) : InCustody K exact asked' c₁ := by
  obtain ⟨hledger, hmanagers, hoffers⟩ := takeTurn_eq_ok hturn
  have hkeeper := keeper?_of_offers hoffers
  have hlength : seat < c.managers.length := (List.getElem?_eq_some_iff.mp hm).1
  refine ⟨fun seat' m' hm' => ?_, ?_, ?_, fun token ht => ?_, ?_,
    fun token ht => (hkeeper token).trans (h.stable token ht)⟩
  · rw [hmanagers, List.getElem?_set] at hm'
    by_cases hseat : seat = seat'
    · subst hseat
      rw [if_pos rfl, if_pos hlength] at hm'
      cases hm'
      exact hmine
    · rw [if_neg hseat] at hm'
      refine (h.managers seat' m' hm').transfer (fun token hk ha => ⟨(hkeeper token).trans hk, ?_⟩)
        fun token => ?_
      · obtain rfl | ⟨rfl, -⟩ := hasked
        · exact ha
        · exact (Option.some_ne_none token).symm
      · -- What is reported on was in the care of the manager whose turn it is.
        have hother : c.keeper? token = some seat' → token ∉ reportedTokens t.effects := by
          intro hk hmem
          rw [hreports token hmem, Option.some.injEq] at hk
          exact hseat hk
        have haskedOther : c.keeper? token = some seat' →
            (asked' ≠ some token ↔ asked ≠ some token) := by
          intro hk
          obtain rfl | ⟨rfl, haccepted⟩ := hasked
          · exact Iff.rfl
          · refine ⟨fun _ ha => ?_, fun _ => (Option.some_ne_none token).symm⟩
            rw [haccepted token ha, Option.some.injEq] at hk
            exact hseat hk
        rw [Waits, Waits, hkeeper, hledger]
        constructor
        · rintro ⟨hp, hk, ha⟩
          exact ⟨(RequestLedger.isPending_without.mp hp).1, hk, (haskedOther hk).mp ha⟩
        · rintro ⟨hp, hk, ha⟩
          exact ⟨RequestLedger.isPending_without.mpr ⟨hp, hother hk⟩, hk, (haskedOther hk).mpr ha⟩
  · rw [hmanagers, map_isCustom_set hm hkind, h.custom]
  · rw [hoffers, hledger]
    exact h.offered
  · rw [hkeeper]
    rw [hledger] at ht
    obtain ha | hk := h.kept token (RequestLedger.isPending_without.mp ht).1
    · obtain rfl | ⟨-, hmine⟩ := hasked
      · exact .inl ha
      · exact .inr ⟨seat, hmine token ha⟩
    · exact .inr hk
  · rw [hledger]
    exact h.later

/-- The turn of an application's own manager that reports only on what it owns, or on a request
that it accepts. -/
theorem customTurn (h : InCustody K exact asked c) {seat : Nat} {b : Behaviour σ} {state new : σ}
    {tables : HandleTables} {effects : List Effect}
    (hm : c.managers[seat]? = some (.custom b state))
    (hturn : c.takeTurn seat ⟨.custom b new, tables, effects⟩ = .ok c₁)
    (hasked : asked' = asked ∨
      asked' = none ∧ ∀ token, asked = some token → c.keeper? token = some seat)
    (hreports : ∀ token ∈ reportedTokens effects,
      K.own seat state token ∨ asked = some token ∧ asked' = none)
    (howns : ∀ token, K.own seat new token →
      K.own seat state token ∨ asked = some token ∧ asked' = none) :
    InCustody K exact asked' c₁ := by
  obtain ⟨hb, hown⟩ := h.managers seat _ hm
  have hmine : ∀ token, K.own seat state token ∨ asked = some token ∧ asked' = none →
      c.keeper? token = some seat ∧ asked' ≠ some token := by
    rintro token (ht | ⟨ha, ha'⟩)
    · obtain ⟨hk, hne⟩ := hown token ht
      refine ⟨hk, ?_⟩
      obtain rfl | ⟨rfl, -⟩ := hasked
      · exact hne
      · exact (Option.some_ne_none token).symm
    · subst ha'
      obtain heq | ⟨-, hk⟩ := hasked
      · rw [← heq] at ha
        cases ha
      · exact ⟨hk token ha, (Option.some_ne_none token).symm⟩
  obtain ⟨-, -, hoffers⟩ := takeTurn_eq_ok hturn
  refine h.turn hm hturn rfl (fun token ht => (hmine token (hreports token ht)).1) hasked
    ⟨hb, fun token ht => ?_⟩
  rw [keeper?_of_offers hoffers]
  exact hmine token (howns token ht)

/-- The turn of a contact list whose queues and reports make up the requests that waited there, and
those it accepts. Such a turn breaks no promise. -/
theorem contactTurn (h : InCustody K true asked c) (accepted : List RequestToken) {seat : Nat}
    {server : ContactServer ρ} {list list' : ContactList} {data data' : ρ}
    {tables : HandleTables} {effects : List Effect}
    (hm : c.managers[seat]? = some (.contacts server list data))
    (htally : ∀ token, list'.queuedTokens.count token + (reportedTokens effects).count token =
      list.queuedTokens.count token + accepted.count token)
    (hreused : ∀ token ∈ reusedTokens effects, ∀ p,
      c.ledger.inFlight.get? token = some p → p.method ≠ .create)
    (haccepted : accepted = [] ∧ asked' = asked ∨
      ∃ token, accepted = [token] ∧ asked = some token ∧ asked' = none ∧
        c.ledger.isPending token = true ∧ c.keeper? token = some seat) :
    ∃ c₁, c.takeTurn seat ⟨.contacts server list' data', tables, effects⟩ = .ok c₁ ∧
      InCustody K true asked' c₁ := by
  -- What was accepted waits as well, now that it is no longer being offered.
  have hexpected : ∀ token, list.queuedTokens.count token + accepted.count token =
      if c.Waits asked' seat token then 1 else 0 := by
    intro token
    rw [h.managers seat _ hm rfl token]
    obtain ⟨rfl, rfl⟩ | ⟨token', rfl, rfl, rfl, hp, hk⟩ := haccepted
    · simp
    · by_cases ht : token = token'
      · subst ht
        simp [Waits, hp, hk]
      · have hne : token' ≠ token := fun heq => ht heq.symm
        simp [Waits, hne]
  have hcount : ∀ token, list'.queuedTokens.count token +
      (reportedTokens effects).count token = if c.Waits asked' seat token then 1 else 0 :=
    fun token => (htally token).trans (hexpected token)
  have hreported : ∀ token ∈ reportedTokens effects, c.Waits asked' seat token := by
    intro token ht
    have hpos := List.count_pos_iff.mpr ht
    have := hcount token
    by_cases hw : c.Waits asked' seat token
    · exact hw
    · rw [if_neg hw] at this
      omega
  have hnodup : (reportedTokens effects).Nodup := by
    refine List.nodup_iff_count.mpr fun token => ?_
    have := hcount token
    split at this <;> omega
  obtain ⟨c₁, hturn⟩ := takeTurn_isOk seat ⟨.contacts server list' data', tables, effects⟩ hnodup
    (fun token ht => (hreported token ht).1) hreused
  have hasked : asked' = asked ∨
      asked' = none ∧ ∀ token, asked = some token → c.keeper? token = some seat := by
    obtain ⟨-, rfl⟩ | ⟨token', -, rfl, rfl, -, hk⟩ := haccepted
    · exact .inl rfl
    · refine .inr ⟨rfl, fun token ht => ?_⟩
      cases ht
      exact hk
  obtain ⟨hledger, -, hoffers⟩ := takeTurn_eq_ok hturn
  refine ⟨c₁, hturn, h.turn hm hturn rfl (fun token ht => (hreported token ht).2.1) hasked ?_⟩
  intro _ token
  have hkeeper := keeper?_of_offers hoffers token
  have := hcount token
  have hpending : c₁.ledger.isPending token = true ↔
      c.ledger.isPending token = true ∧ token ∉ reportedTokens effects := by
    rw [hledger]
    exact RequestLedger.isPending_without
  have hwaits : c₁.Waits asked' seat token ↔
      c.Waits asked' seat token ∧ token ∉ reportedTokens effects := by
    rw [Waits, Waits, hpending, hkeeper]
    constructor
    · rintro ⟨⟨hp, ht⟩, hk, ha⟩
      exact ⟨⟨hp, hk, ha⟩, ht⟩
    · rintro ⟨⟨hp, hk, ha⟩, ht⟩
      exact ⟨⟨hp, ht⟩, hk, ha⟩
  by_cases ht : token ∈ reportedTokens effects
  · have hpos := List.count_pos_iff.mpr ht
    rw [if_neg fun hw => (hwaits.mp hw).2 ht]
    rw [if_pos (hreported token ht)] at this
    omega
  · rw [List.count_eq_zero.mpr ht, Nat.add_zero] at this
    rw [this]
    by_cases hw : c.Waits asked' seat token
    · rw [if_pos hw, if_pos (hwaits.mpr ⟨hw, ht⟩)]
    · rw [if_neg hw, if_neg fun hw' => hw (hwaits.mp hw').1]

end InCustody

end Connection

end Telepathy

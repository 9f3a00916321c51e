import Telepathy.Proofs.Connection.Accounts
import Telepathy.Proofs.Connection.Custody

set_option autoImplicit false

/-!
# No request is lost in a queue

Every stage of an operation keeps the requests in flight in custody, or ends because an
application's own manager broke a promise: `Fair` says this of a computation.
-/

namespace Telepathy.Connection

variable {σ ρ : Type} {c c₁ : Connection σ ρ} {K : Custody σ} {exact : Bool}

/-! ## Fair computations -/

/-- A computation that ends well, or because an application's own manager broke a promise. -/
def Fair (K : Custody σ) {α : Type} (P : α → Prop) (x : Except Crash α) : Prop :=
  x.Ends (fun crash => ∃ seat, crash.seat = some seat ∧ K.custom[seat]? = some true) P

/-- Whatever an application's own manager does in its turn is fair. -/
theorem fair_takeTurn {P : Connection σ ρ → Prop} {seat : Nat} {t : Turn σ ρ}
    (hcustom : K.custom[seat]? = some true) (h : ∀ c₁, c.takeTurn seat t = .ok c₁ → P c₁) :
    Fair K P (c.takeTurn seat t) := by
  cases hturn : c.takeTurn seat t with
  | ok c₁ => exact h c₁ hturn
  | error crash => exact ⟨seat, seat_of_takeTurn hturn, hcustom⟩

/-! ## Offering -/

/-- What holds while a request is being offered and nobody has accepted it yet. -/
structure Offering (K : Custody σ) (r : ChannelRequest) (c : Connection σ ρ) : Prop where
  custody : InCustody K true (some r.token) c
  fresh : K.issued < r.token.number
  issued : r.token.number ≤ c.ledger.tokens
  pending : ∃ p, c.ledger.inFlight.get? r.token = some p ∧ p.method = r.method

/-- What holds when a manager was asked. -/
def Asked (K : Custody σ) (r : ChannelRequest) : Offer × Connection σ ρ → Prop
  | (.accepted, c) => InCustody K true none c
  | (.declined, c) => Offering K r c

variable {r : ChannelRequest}

/-- A request that goes to the next manager is in the care of that one. -/
theorem Offering.record (h : Offering K r c) (seat : Nat) :
    Offering K r (c.record [.offered seat r]) where
  custody := by
    have hkeeper := keeper?_offered c seat r
    have hother : ∀ token, some r.token ≠ some token →
        (c.record [.offered seat r]).keeper? token = c.keeper? token := by
      intro token ht
      rw [hkeeper, if_neg fun heq => ht (congrArg some heq.symm)]
    refine ⟨fun seat' m hm => ?_, h.custody.custom, fun o ho => ?_, fun token ht => ?_,
      h.custody.later, fun token ht => ?_⟩
    · refine (h.custody.managers seat' m hm).transfer
        (fun token hk ha => ⟨(hother token ha).trans hk, ha⟩) fun token => ?_
      constructor
      · rintro ⟨hp, hk, ha⟩
        exact ⟨hp, (hother token ha).symm.trans hk, ha⟩
      · rintro ⟨hp, hk, ha⟩
        exact ⟨hp, (hother token ha).trans hk, ha⟩
    · rw [offers_offered] at ho
      obtain ho | ho := List.mem_append.mp ho
      · exact h.custody.offered o ho
      · rw [List.mem_singleton.mp ho]
        exact h.issued
    · by_cases hr : some r.token = some token
      · exact .inl hr
      · rw [hother token hr]
        exact h.custody.kept token ht
    · have hne : token ≠ r.token := by
        rintro rfl
        exact absurd ht (Nat.not_le_of_lt h.fresh)
      rw [hkeeper, if_neg hne]
      exact h.custody.stable token ht
  fresh := h.fresh
  issued := h.issued
  pending := h.pending

/-- A request that a turn does not report on is still being offered. -/
theorem Offering.of_turn (h : Offering K r c) {seat : Nat} {t : Turn σ ρ}
    (hturn : c.takeTurn seat t = .ok c₁) (hnot : r.token ∉ reportedTokens t.effects)
    (hcustody : InCustody K true (some r.token) c₁) : Offering K r c₁ := by
  obtain ⟨hledger, -, -⟩ := takeTurn_eq_ok hturn
  obtain ⟨p, hp, hmethod⟩ := h.pending
  refine ⟨hcustody, h.fresh, ?_, p, ?_, hmethod⟩
  · rw [hledger]
    exact h.issued
  · rw [hledger, RequestLedger.get?_without, if_neg hnot]
    exact hp

/-- An application's own manager is asked. -/
theorem Offering.askCustom (h : Offering K r c) {seat : Nat} {b : Behaviour σ} {state : σ}
    (hm : c.managers[seat]? = some (.custom b state)) (hkeeper : c.keeper? r.token = some seat)
    (tables : HandleTables) :
    Fair K (Asked K r) ((c.takeTurn seat
      ⟨.custom b (b.answer state r).state, tables, (b.answer state r).effects⟩).map
        fun c => ((b.answer state r).offer, c)) := by
  obtain ⟨hb, hown⟩ := h.custody.managers seat _ hm
  refine (fair_takeTurn (h.custody.isCustom hm) fun c₁ hturn => hturn).map fun c₁ hturn => ?_
  cases hoffer : (b.answer state r).offer with
  | accepted =>
    refine h.custody.customTurn hm hturn (.inr ⟨rfl, fun token ht => ?_⟩) (fun token ht => ?_)
      fun token ht => ?_
    · cases ht
      exact hkeeper
    · exact (hb.answer_reports state r token ht).imp_right fun heq =>
        ⟨congrArg some heq.1.symm, rfl⟩
    · exact (hb.answer_owns state r token ht).imp_right fun heq => ⟨congrArg some heq.1.symm, rfl⟩
  | declined =>
    have hown' : ∀ token, K.own seat state token ∨
        token = r.token ∧ (b.answer state r).offer = .accepted → K.own seat state token := by
      rintro token (ht | ⟨-, haccepted⟩)
      · exact ht
      · rw [hoffer] at haccepted
        cases haccepted
    refine h.of_turn hturn (fun ht => ?_) (h.custody.customTurn hm hturn (.inl rfl)
      (fun token ht => .inl (hown' token (hb.answer_reports state r token ht)))
      fun token ht => .inl (hown' token (hb.answer_owns state r token ht)))
    exact (hown _ (hown' _ (hb.answer_reports state r _ ht))).2 rfl

/-- A contact list is asked. -/
theorem Offering.askContacts (h : Offering K r c) {seat : Nat} {server : ContactServer ρ}
    {list : ContactList} {data : ρ} (hm : c.managers[seat]? = some (.contacts server list data))
    (hkeeper : c.keeper? r.token = some seat) (tables : HandleTables) :
    let s : ContactScene ρ := ⟨list, data, tables, []⟩
    Fair K (Asked K r) ((c.takeTurn seat (Manager.close server (s.offer server r).2)).map
      fun c => ((s.offer server r).1, c)) := by
  intro s
  obtain ⟨p, hp, hmethod⟩ := h.pending
  obtain hdeclined | ⟨s', haccepted, htoken⟩ := s.offer_spec server r
  · rw [hdeclined]
    have hquiet : ∃ c₁, c.takeTurn seat (Manager.close server s) = .ok c₁ ∧
        InCustody K true (some r.token) c₁ :=
      h.custody.contactTurn [] hm (fun _ => rfl) (by simp [s, reusedTokens]) (.inl ⟨rfl, rfl⟩)
    obtain ⟨c₁, hturn, hcustody⟩ := hquiet
    rw [hturn]
    exact h.of_turn hturn List.not_mem_nil hcustody
  · rw [haccepted]
    have htally : ∀ token, s'.list.queuedTokens.count token +
        (reportedTokens s'.effects).count token =
          list.queuedTokens.count token + [r.token].count token := htoken.tally
    have hreused : ∀ token ∈ reusedTokens s'.effects, ∀ q,
        c.ledger.inFlight.get? token = some q → q.method ≠ .create := by
      intro token ht q hq
      obtain hnone | ⟨rfl, hnew⟩ := htoken.reused token ht
      · cases hnone
      · rw [hp, Option.some.injEq] at hq
        rwa [← hq, hmethod]
    have hserved : ∃ c₁, c.takeTurn seat (Manager.close server s') = .ok c₁ ∧
        InCustody K true none c₁ :=
      h.custody.contactTurn [r.token] hm htally hreused
        (.inr ⟨r.token, rfl, rfl, rfl, RequestLedger.isPending_iff.mpr ⟨p, hp⟩, hkeeper⟩)
    obtain ⟨c₁, hturn, hcustody⟩ := hserved
    rw [hturn]
    exact hcustody

theorem Offering.askAt (h : Offering K r c) (seat : Nat) :
    Fair K (Asked K r) (c.offerAt r seat) := by
  unfold offerAt
  cases hm : c.managers[seat]? with
  | none => exact h
  | some m =>
    have hrecorded := h.record seat
    have hkeeper : (c.record [.offered seat r]).keeper? r.token = some seat := by
      rw [keeper?_offered, if_pos rfl]
    cases m with
    | custom b state => exact hrecorded.askCustom hm hkeeper _
    | contacts server list data => exact hrecorded.askContacts hm hkeeper _

theorem Offering.askAll (h : Offering K r c) (seats : List Nat) :
    Fair K (Asked K r) (c.offerTo r seats) := by
  induction seats generalizing c with
  | nil => exact h
  | cons seat seats ih =>
    refine (h.askAt seat).bind fun asked hasked => ?_
    obtain ⟨offer, c'⟩ := asked
    cases offer with
    | accepted => exact hasked
    | declined => exact ih hasked

/-- A request that nobody accepted is answered, and is in nobody's care. -/
theorem Offering.refuse (h : Offering K r c) : InCustody K true none (c.refuse r) := by
  obtain ⟨p, hp, -⟩ := h.pending
  have hrefuse : (c.refuse r).ledger = c.ledger.without [r.token] ∧
      (c.refuse r).managers = c.managers ∧ (c.refuse r).offers = c.offers := by
    unfold Connection.refuse
    rw [RequestLedger.claim_eq_ok_iff.mpr ⟨hp, rfl⟩]
    exact ⟨rfl, rfl, offers_record _ (by simp)⟩
  obtain ⟨hledger, hmanagers, hoffers⟩ := hrefuse
  have hkeeper := keeper?_of_offers hoffers
  have hpending : ∀ token, (c.refuse r).ledger.isPending token = true ↔
      c.ledger.isPending token = true ∧ some r.token ≠ some token := by
    intro token
    rw [hledger, RequestLedger.isPending_without, List.mem_singleton, ne_eq, Option.some.injEq,
      eq_comm (a := token)]
  refine ⟨fun seat m hm => ?_, hmanagers ▸ h.custody.custom, ?_, fun token ht => ?_, ?_,
    fun token ht => ?_⟩
  · refine (h.custody.managers seat m (hmanagers ▸ hm)).transfer
      (fun token hk _ => ⟨(hkeeper token).trans hk, (Option.some_ne_none token).symm⟩)
      fun token => ?_
    rw [Waits, Waits, hkeeper, hpending]
    constructor
    · rintro ⟨⟨hp, hne⟩, hk, -⟩
      exact ⟨hp, hk, hne⟩
    · rintro ⟨hp, hk, hne⟩
      exact ⟨⟨hp, hne⟩, hk, (Option.some_ne_none token).symm⟩
  · rw [hoffers, hledger]
    exact h.custody.offered
  · obtain ⟨hp, hne⟩ := (hpending token).mp ht
    rw [hkeeper]
    exact .inr ((h.custody.kept token hp).resolve_left hne)
  · rw [hledger]
    exact h.custody.later
  · rw [hkeeper]
    exact h.custody.stable token ht

/-- A request that was put in flight a moment ago is in nobody's care. -/
theorem InCustody.track (h : InCustody K true none c) (p : PendingRequest) (tables : HandleTables)
    (htoken : r.token = c.ledger.nextToken) (hmethod : p.method = r.method) :
    Offering K r { c with ledger := c.ledger.track p, tables } := by
  have hnew : ∀ token, c.keeper? token ≠ none → token ≠ c.ledger.nextToken := by
    rintro token hk rfl
    obtain ⟨seat, hseat⟩ := Option.ne_none_iff_exists'.mp hk
    obtain ⟨o, ho, heq⟩ := offered_of_keeper? hseat
    have := h.offered o ho
    rw [heq] at this
    exact absurd this (Nat.not_succ_le_self _)
  have hflight : ∀ token, token ≠ c.ledger.nextToken →
      (c.ledger.track p).inFlight.get? token = c.ledger.inFlight.get? token := fun token ht =>
    SortedMap.get?_insert_ne _ _ ht
  refine ⟨⟨fun seat m hm => ?_, h.custom, fun o ho => ?_, fun token ht => ?_, ?_, h.stable⟩, ?_,
    ?_, p, ?_, hmethod⟩
  · have hheld : ∀ token, c.keeper? token = some seat → some r.token ≠ some token := by
      intro token hk heq
      refine hnew token (by rw [hk]; exact Option.some_ne_none seat) ?_
      rw [← htoken]
      exact (Option.some.inj heq).symm
    refine (h.managers seat m hm).transfer (fun token hk _ => ⟨hk, hheld token hk⟩) fun token => ?_
    have hpending : c.keeper? token = some seat → ((c.ledger.track p).isPending token = true ↔
        c.ledger.isPending token = true) := by
      intro hk
      rw [RequestLedger.isPending, RequestLedger.isPending, SortedMap.contains,
        SortedMap.contains, hflight token (hnew token (by rw [hk]; exact Option.some_ne_none seat))]
    constructor
    · rintro ⟨hp, hk, -⟩
      exact ⟨(hpending hk).mp hp, hk, (Option.some_ne_none token).symm⟩
    · rintro ⟨hp, hk, -⟩
      exact ⟨(hpending hk).mpr hp, hk, hheld token hk⟩
  · exact Nat.le_succ_of_le (h.offered o ho)
  · by_cases hr : token = c.ledger.nextToken
    · exact .inl (congrArg some (htoken.trans hr.symm))
    · refine .inr ((h.kept token ?_).resolve_left (Option.some_ne_none token).symm)
      rwa [RequestLedger.isPending, SortedMap.contains, hflight token hr] at ht
  · exact Nat.le_succ_of_le h.later
  · rw [htoken]
    exact Nat.lt_succ_of_le h.later
  · rw [htoken]
    exact Nat.le_refl _
  · rw [htoken]
    exact SortedMap.get?_insert_self _ _ _

theorem InCustody.present (h : InCustody K true none c) (call : CallId) (v : ValidRequest)
    (target : Option Handle) : Fair K (InCustody K true none) (c.present call v target) := by
  unfold Connection.present
  refine ((h.track _ _ rfl rfl).askAll _).bind fun asked hasked => ?_
  obtain ⟨offer, c'⟩ := asked
  cases offer with
  | accepted => exact hasked
  | declined => exact hasked.refuse

/-! ## Changes of status -/

variable (σ) in
/-- A contact list that is told of a status reports on nobody; only when the connection is gone does
it change, and gives up its queues. -/
theorem statusChanged_contacts (server : ContactServer ρ) (list : ContactList) (data : ρ)
    (tables : HandleTables) (status : Status) :
    ∃ list' data' tables' effects,
      (Manager.contacts server list data).statusChanged tables status =
        (⟨.contacts server list' data', tables', effects⟩ : Turn σ ρ) ∧
      reportedTokens effects = [] ∧
      if status = .disconnected then list'.queuedTokens = [] else list' = list := by
  by_cases hs : status = .disconnected
  · let s := (ContactScene.mk list data tables []).disconnect
    obtain ⟨hqueued, hreported⟩ := ContactScene.disconnect_spec ⟨list, data, tables, []⟩
    refine ⟨s.list, s.server, s.tables, s.effects, ?_, hreported, by rw [if_pos hs]; exact hqueued⟩
    simp only [Manager.statusChanged, if_pos hs]
    rfl
  · refine ⟨list, data, tables, [], ?_, rfl, by rw [if_neg hs]⟩
    simp only [Manager.statusChanged, if_neg hs]
    rfl

/-- Telling a manager of a status keeps all requests in custody, unless contact lists are given
up. -/
theorem InCustody.notifyAt {status : Status} (hexact : exact = true → status ≠ .disconnected)
    (h : InCustody K exact none c) (seat : Nat) :
    Fair K (InCustody K exact none) (c.notifyAt status seat) := by
  unfold Connection.notifyAt
  cases hm : c.managers[seat]? with
  | none => exact h
  | some m =>
    have hnotified : InCustody K exact none (c.record [.notified seat status]) :=
      h.frame (.record c (by simp))
    cases m with
    | custom b state =>
      obtain ⟨hb, -⟩ := h.managers seat _ hm
      refine fair_takeTurn (h.isCustom hm) fun c₁ hturn => ?_
      exact hnotified.customTurn hm hturn (.inl rfl)
        (fun token ht => .inl (hb.status_reports state status token ht))
        fun token ht => .inl (hb.status_owns state status token ht)
    | contacts server list data =>
      obtain ⟨list', data', tables', effects, hchanged, hnobody, hlist⟩ :=
        statusChanged_contacts σ server list data c.tables status
      simp only [record, hchanged]
      obtain ⟨c₁, hturn⟩ := (c.record [.notified seat status]).takeTurn_isOk seat
        ⟨.contacts server list' data', tables', effects⟩ (by rw [hnobody]; exact .nil)
        (by simp [hnobody]) fun token ht => by
          have := reported_of_reused ht
          simp [hnobody] at this
      refine (congrArg (Fair K _) hturn).mpr ?_
      refine hnotified.turn hm hturn rfl (by simp [hnobody]) (.inl rfl) fun hexact' => ?_
      rw [if_neg (hexact hexact')] at hlist
      obtain ⟨hledger, -, hoffers⟩ := takeTurn_eq_ok hturn
      have hkeeper := keeper?_of_offers hoffers
      rw [hnobody, RequestLedger.without_nil] at hledger
      have hsame : ManagerInCustody K exact none c₁ seat (.contacts server list data) :=
        (hnotified.managers seat _ hm).transfer
          (fun token hk ha => ⟨(hkeeper token).trans hk, ha⟩) fun token => by
            rw [Waits, Waits, hkeeper, hledger]
      rw [hlist]
      exact hsame hexact'

theorem InCustody.notifyAll (h : InCustody K exact none c) (status : Status)
    (hexact : exact = true → status ≠ .disconnected) (seats : List Nat) :
    Fair K (InCustody K exact none) (seats.foldlM (Connection.notifyAt status) c) :=
  Except.Ends.foldlM (fun _ seat hc => hc.notifyAt hexact seat) seats h

/-- Once a contact list has been told that the connection is gone, nobody waits there. -/
theorem emptied_of_notifyAt {seat seat' : Nat} (h : c.notifyAt .disconnected seat = .ok c₁)
    {server : ContactServer ρ} {list : ContactList} {data : ρ}
    (hm : c₁.managers[seat']? = some (.contacts server list data)) :
    list.queuedTokens = [] ∨
      seat' ≠ seat ∧ c.managers[seat']? = some (.contacts server list data) := by
  unfold Connection.notifyAt at h
  cases hseat : c.managers[seat]? with
  | none =>
    simp only [hseat] at h
    cases h
    refine .inr ⟨?_, hm⟩
    rintro rfl
    rw [hseat] at hm
    cases hm
  | some m =>
    simp only [hseat] at h
    obtain ⟨-, hmanagers, -⟩ := takeTurn_eq_ok h
    rw [hmanagers, List.getElem?_set] at hm
    by_cases heq : seat = seat'
    · rw [if_pos heq] at hm
      refine .inl ?_
      split at hm
      case isFalse => cases hm
      case isTrue =>
        cases m with
        | custom b state => cases hm
        | contacts server' list₀ data₀ =>
          obtain ⟨list', data', tables', effects, hchanged, -, hlist⟩ :=
            statusChanged_contacts σ server' list₀ data₀ c.tables .disconnected
          simp only [hchanged] at hm
          cases hm
          exact hlist
    · rw [if_neg heq] at hm
      exact .inr ⟨fun h => heq h.symm, hm⟩

theorem emptied_of_notifyAll {seats : List Nat}
    (h : seats.foldlM (Connection.notifyAt .disconnected) c = .ok c₁) {seat : Nat}
    {server : ContactServer ρ} {list : ContactList} {data : ρ}
    (hm : c₁.managers[seat]? = some (.contacts server list data)) :
    list.queuedTokens = [] ∨
      seat ∉ seats ∧ c.managers[seat]? = some (.contacts server list data) := by
  induction seats generalizing c with
  | nil =>
    cases h
    exact .inr ⟨List.not_mem_nil, hm⟩
  | cons first seats ih =>
    obtain ⟨c', hfirst, hrest⟩ := Except.bind_eq_ok.mp (by rwa [List.foldlM_cons] at h)
    obtain hempty | ⟨hnot, hm'⟩ := ih hrest
    · exact .inl hempty
    · refine (emptied_of_notifyAt hfirst hm').imp_right fun ⟨hne, hm⟩ => ⟨?_, hm⟩
      rw [List.mem_cons, not_or]
      exact ⟨hne, hnot⟩

theorem InCustody.weaken {asked : Option RequestToken} (h : InCustody K true asked c) :
    InCustody K exact asked c where
  managers seat m hm := by
    have hmine := h.managers seat m hm
    cases m with
    | custom b state => exact hmine
    | contacts server list data => exact fun _ => hmine rfl
  custom := h.custom
  offered := h.offered
  kept := h.kept
  later := h.later
  stable := h.stable

/-- A connection that is torn down has no requests in flight, so nobody has to wait. -/
theorem InCustody.tearDown (h : InCustody K false none c)
    (hempty : ∀ (seat : Nat) (server : ContactServer ρ) (list : ContactList) (data : ρ),
      c.managers[seat]? = some (.contacts server list data) → list.queuedTokens = []) :
    InCustody K true none c.tearDown := by
  refine frame ?_ (undisturbed_tearDown c)
  have hoffers : c.failOutstanding.offers = c.offers := by
    refine offers_record _ fun e he seat r heq => ?_
    obtain ⟨call, -, rfl⟩ := List.mem_map.mp he
    cases heq
  have hkeeper := keeper?_of_offers hoffers
  have hnone : ∀ token, ¬ c.failOutstanding.ledger.isPending token = true :=
    fun token => Bool.false_ne_true
  refine ⟨fun seat m hm => ?_, h.custom, ?_, fun token ht => absurd ht (hnone token), h.later,
    fun token ht => (hkeeper token).trans (h.stable token ht)⟩
  · cases m with
    | custom b state =>
      obtain ⟨hb, hown⟩ := h.managers seat _ hm
      refine ⟨hb, fun token ht => ?_⟩
      rw [hkeeper]
      exact hown token ht
    | contacts server list data =>
      intro _ token
      rw [if_neg fun hw => hnone token hw.1, hempty seat server list data hm]
      rfl
  · rw [hoffers]
    exact h.offered

theorem InCustody.enter (h : InCustody K true none c) (status : Status) (reason : StatusReason) :
    Fair K (InCustody K true none) (c.enter status reason) := by
  have hhooked : InCustody K true none
      (({ c with status }.emit (.statusChanged status reason)).record
        ((hookFor c.status status).toList.map .hook)) := by
    have hemitted : c.Undisturbed ({ c with status }.emit (.statusChanged status reason)) :=
      ⟨rfl, rfl, rfl, offers_record _ (by simp)⟩
    refine h.frame (hemitted.trans (.record _ fun e he seat r heq => ?_))
    obtain ⟨hook, -, rfl⟩ := List.mem_map.mp he
    cases heq
  unfold Connection.enter
  by_cases hs : status = .disconnected
  · subst hs
    refine (hhooked.weaken.notifyAll .disconnected (fun h => absurd h Bool.false_ne_true)
      c.seats).bind_of_ok fun told hall htold => ?_
    rw [if_pos rfl]
    refine htold.tearDown fun seat server list data hm => ?_
    obtain hempty | ⟨hnot, hm⟩ := emptied_of_notifyAll hall hm
    · exact hempty
    · have : seat < c.managers.length := (List.getElem?_eq_some_iff.mp hm).1
      exact absurd (List.mem_range.mpr this) hnot
  · refine (hhooked.notifyAll status (fun _ => hs) c.seats).bind fun told htold => ?_
    rw [if_neg hs]
    exact htold

end Telepathy.Connection

import Telepathy.Proofs.Fallible
import Telepathy.Proofs.Sorted.Entries
import Telepathy.Request.Ledger

set_option autoImplicit false

/-!
# Laws of the request ledger

A ledger is opened in three ways: a request is put in, requests are taken out, and all of them are
forgotten. What matters afterwards is which requests are left and whose calls they are. Taking out
the requests of several tokens succeeds exactly if the tokens are different and all in flight, and
it leaves those of the other tokens.

Tokens and tickets are issued by counting. So a ledger `Advances` to another if the counters only
grow and whatever is new bears a number that was not issued before; then what was once resolved is
never pending again.
-/

namespace Telepathy.RequestLedger

/-! ## Calls -/

/-- The calls whose requests are in flight. -/
def callsInFlight (l : RequestLedger) : List CallId := l.inFlight.values.map (·.call)

/-- The calls whose requests wait for a lookup. -/
def callsParked (l : RequestLedger) : List CallId := l.parked.values.map (·.call)

/-- The ledger without the requests of some tokens. -/
def without (l : RequestLedger) (tokens : List RequestToken) : RequestLedger :=
  { l with inFlight := l.inFlight.filter fun token _ => token ∉ tokens }

theorem calls_eq (l : RequestLedger) : l.calls = l.callsParked ++ l.callsInFlight := rfl

theorem get?_without (l : RequestLedger) (tokens : List RequestToken) (token : RequestToken) :
    (l.without tokens).inFlight.get? token =
      if token ∈ tokens then none else l.inFlight.get? token := by
  simp only [without, SortedMap.get?_filter]
  by_cases h : token ∈ tokens <;> cases l.inFlight.get? token <;> simp [h]

/-- A ledger is what is left of another if it has the requests of the other tokens. -/
theorem eq_without {l : RequestLedger} {tokens : List RequestToken}
    {m : SortedMap RequestToken PendingRequest}
    (h : ∀ token, m.get? token = if token ∈ tokens then none else l.inFlight.get? token) :
    { l with inFlight := m } = l.without tokens := by
  have : m = (l.without tokens).inFlight :=
    SortedMap.ext_get? fun token => by rw [h, get?_without]
  rw [this, without]

theorem without_nil (l : RequestLedger) : l.without [] = l :=
  (eq_without (l := l) fun token => by simp).symm

theorem without_one (l : RequestLedger) (token : RequestToken) :
    l.without [token] = { l with inFlight := l.inFlight.erase token } :=
  (eq_without fun t => by simp [SortedMap.get?_erase]).symm

theorem without_without (l : RequestLedger) (tokens tokens' : List RequestToken) :
    (l.without tokens).without tokens' = l.without (tokens ++ tokens') := by
  refine eq_without (l := l) fun token => ?_
  have : ((l.without tokens).without tokens').inFlight.get? token =
      if token ∈ tokens ++ tokens' then none else l.inFlight.get? token := by
    rw [get?_without, get?_without]
    by_cases h : token ∈ tokens <;> by_cases h' : token ∈ tokens' <;> simp [h, h']
  exact this

/-! ## Taking requests out -/

theorem claim_eq_ok_iff {l l' : RequestLedger} {token : RequestToken} {p : PendingRequest} :
    l.claim token = .ok (p, l') ↔ l.inFlight.get? token = some p ∧ l' = l.without [token] := by
  unfold claim
  cases h : l.inFlight.get? token with
  | none => simp
  | some q => simp [without_one, eq_comm]

/-- Several tokens are claimed exactly if they are different and all in flight. -/
theorem claimAll_eq_ok_iff {tokens : List RequestToken} {l l' : RequestLedger}
    {ps : List PendingRequest} :
    l.claimAll tokens = .ok (ps, l') ↔
      tokens.Nodup ∧ tokens.map l.inFlight.get? = ps.map some ∧ l' = l.without tokens := by
  induction tokens generalizing l ps with
  | nil =>
    rw [without_nil, claimAll, Except.ok.injEq, Prod.mk.injEq]
    cases ps with
    | nil => simp [eq_comm]
    | cons p ps => simp
  | cons token tokens ih =>
    have hmap : ∀ qs : List PendingRequest,
        tokens.map (l.without [token]).inFlight.get? = qs.map some ↔
          token ∉ tokens ∧ tokens.map l.inFlight.get? = qs.map some := by
      intro qs
      by_cases hmem : token ∈ tokens
      · have hnone : none ∈ tokens.map (l.without [token]).inFlight.get? :=
          List.mem_map.mpr ⟨token, hmem, by simp [get?_without]⟩
        refine ⟨fun h => ?_, fun h => absurd hmem h.1⟩
        rw [h] at hnone
        simp at hnone
      · have hsame : tokens.map (l.without [token]).inFlight.get? =
            tokens.map l.inFlight.get? := by
          refine List.map_congr_left fun t ht => ?_
          have hne : t ≠ token := fun h => hmem (h ▸ ht)
          simp [get?_without, hne]
        simp [hsame, hmem]
    constructor
    · intro h
      obtain ⟨⟨p, l₁⟩, hclaim, h⟩ := Except.bind_eq_ok.mp h
      obtain ⟨⟨qs, l₂⟩, hrest, h⟩ := Except.bind_eq_ok.mp h
      cases h
      obtain ⟨hp, rfl⟩ := claim_eq_ok_iff.mp hclaim
      obtain ⟨hnodup, hqs, rfl⟩ := ih.mp hrest
      obtain ⟨hfresh, hqs⟩ := (hmap qs).mp hqs
      exact ⟨List.nodup_cons.mpr ⟨hfresh, hnodup⟩, by simp [hp, hqs],
        without_without l [token] tokens⟩
    · rintro ⟨hnodup, hps, rfl⟩
      obtain ⟨hfresh, hnodup⟩ := List.nodup_cons.mp hnodup
      cases ps with
      | nil => simp at hps
      | cons p qs =>
        rw [List.map_cons, List.map_cons, List.cons.injEq] at hps
        have hrest : (l.without [token]).claimAll tokens = .ok (qs, l.without (token :: tokens)) :=
          ih.mpr ⟨hnodup, (hmap qs).mpr ⟨hfresh, hps.2⟩, (without_without l [token] tokens).symm⟩
        refine Except.bind_eq_ok.mpr ⟨_, claim_eq_ok_iff.mpr ⟨hps.1, rfl⟩, ?_⟩
        exact Except.bind_eq_ok.mpr ⟨_, hrest, rfl⟩

/-- Claimed requests are in flight under their tokens. -/
theorem mem_of_claimed {l : RequestLedger} {tokens : List RequestToken} {ps : List PendingRequest}
    (h : tokens.map l.inFlight.get? = ps.map some) {token : RequestToken} (hmem : token ∈ tokens) :
    ∃ p ∈ ps, l.inFlight.get? token = some p := by
  have : l.inFlight.get? token ∈ ps.map some := h ▸ List.mem_map_of_mem hmem
  obtain ⟨p, hp, heq⟩ := List.mem_map.mp this
  exact ⟨p, hp, heq.symm⟩

/-- What is in flight is what was claimed and what is left. -/
theorem inFlight_perm_claimed {tokens : List RequestToken} {l : RequestLedger}
    {ps : List PendingRequest} (hnodup : tokens.Nodup)
    (hps : tokens.map l.inFlight.get? = ps.map some) :
    l.inFlight.values.Perm (ps ++ (l.without tokens).inFlight.values) := by
  induction tokens generalizing l ps with
  | nil =>
    cases ps with
    | nil => simp [without_nil]
    | cons p ps => simp at hps
  | cons token tokens ih =>
    cases ps with
    | nil => simp at hps
    | cons p ps =>
      rw [List.map_cons, List.map_cons, List.cons.injEq] at hps
      obtain ⟨hfresh, hnodup⟩ := List.nodup_cons.mp hnodup
      have hfirst : l.inFlight.values.Perm (p :: (l.without [token]).inFlight.values) := by
        rw [without_one]
        exact (SortedMap.toList_perm_erase hps.1).map Prod.snd
      have hrest : tokens.map (l.without [token]).inFlight.get? = ps.map some := by
        rw [← hps.2]
        refine List.map_congr_left fun t ht => ?_
        have hne : t ≠ token := fun h => hfresh (h ▸ ht)
        simp [get?_without, hne]
      have := ih hnodup hrest
      rw [without_without] at this
      exact hfirst.trans (this.cons p)

/-! ## Putting requests in -/

/-- Every pending request bears a number that was issued. -/
structure Issued (l : RequestLedger) : Prop where
  tokens : ∀ token, l.isPending token = true → token.number ≤ l.tokens
  tickets : ∀ ticket, l.parked.contains ticket = true → ticket.number ≤ l.tickets

/-- The counters only grow, and whatever was not pending before bears a number issued since. -/
structure Advances (l l' : RequestLedger) : Prop where
  tokens : l.tokens ≤ l'.tokens
  tickets : l.tickets ≤ l'.tickets
  inFlight : ∀ token, l'.isPending token = true →
    l.isPending token = true ∨ l.tokens < token.number ∧ token.number ≤ l'.tokens
  parked : ∀ ticket, l'.parked.contains ticket = true →
    l.parked.contains ticket = true ∨ l.tickets < ticket.number ∧ ticket.number ≤ l'.tickets

theorem Advances.refl (l : RequestLedger) : l.Advances l :=
  ⟨Nat.le_refl _, Nat.le_refl _, fun _ => .inl, fun _ => .inl⟩

theorem Advances.trans {l l₁ l₂ : RequestLedger} (h : l.Advances l₁) (h' : l₁.Advances l₂) :
    l.Advances l₂ where
  tokens := Nat.le_trans h.tokens h'.tokens
  tickets := Nat.le_trans h.tickets h'.tickets
  inFlight token ht := by
    have := h.tokens
    have := h'.tokens
    obtain ht | ht := h'.inFlight token ht
    · obtain ht | ht := h.inFlight token ht
      · exact .inl ht
      · omega
    · omega
  parked ticket ht := by
    have := h.tickets
    have := h'.tickets
    obtain ht | ht := h'.parked ticket ht
    · obtain ht | ht := h.parked ticket ht
      · exact .inl ht
      · omega
    · omega

theorem Issued.of_advances {l l' : RequestLedger} (hl : l.Issued) (h : l.Advances l') :
    l'.Issued where
  tokens token ht := by
    have := h.tokens
    obtain ht | ht := h.inFlight token ht
    · exact Nat.le_trans (hl.tokens token ht) h.tokens
    · exact ht.2
  tickets ticket ht := by
    obtain ht | ht := h.parked ticket ht
    · exact Nat.le_trans (hl.tickets ticket ht) h.tickets
    · exact ht.2

theorem issued_empty : empty.Issued := ⟨by simp [isPending, empty, SortedMap.contains],
  by simp [empty, SortedMap.contains]⟩

theorem Issued.nextToken_fresh {l : RequestLedger} (h : l.Issued) :
    l.inFlight.get? l.nextToken = none := by
  cases hp : l.inFlight.get? l.nextToken with
  | none => rfl
  | some p =>
    have := h.tokens l.nextToken (by simp [isPending, SortedMap.contains, hp])
    exact absurd this (Nat.not_succ_le_self _)

theorem Issued.nextTicket_fresh {l : RequestLedger} (h : l.Issued) :
    l.parked.get? l.nextTicket = none := by
  cases hp : l.parked.get? l.nextTicket with
  | none => rfl
  | some p =>
    have := h.tickets l.nextTicket (by simp [SortedMap.contains, hp])
    exact absurd this (Nat.not_succ_le_self _)

theorem isPending_iff {l : RequestLedger} {token : RequestToken} :
    l.isPending token = true ↔ ∃ p, l.inFlight.get? token = some p :=
  Option.isSome_iff_exists

theorem isPending_without {l : RequestLedger} {tokens : List RequestToken} {token : RequestToken} :
    (l.without tokens).isPending token = true ↔ l.isPending token = true ∧ token ∉ tokens := by
  rw [isPending, isPending, SortedMap.contains, SortedMap.contains, get?_without]
  by_cases h : token ∈ tokens <;> simp [h]

theorem advances_track (l : RequestLedger) (p : PendingRequest) : l.Advances (l.track p) where
  tokens := Nat.le_succ _
  tickets := Nat.le_refl _
  inFlight token ht := by
    by_cases h : token = l.nextToken
    · subst h
      exact .inr ⟨Nat.lt_succ_self _, Nat.le_refl _⟩
    · rw [isPending_iff, track, SortedMap.get?_insert_ne _ _ h] at ht
      exact .inl (isPending_iff.mpr ht)
  parked _ := .inl

theorem advances_park (l : RequestLedger) (p : ParkedRequest) : l.Advances (l.park p) where
  tokens := Nat.le_refl _
  tickets := Nat.le_succ _
  inFlight _ := .inl
  parked ticket ht := by
    by_cases h : ticket = l.nextTicket
    · subst h
      exact .inr ⟨Nat.lt_succ_self _, Nat.le_refl _⟩
    · rw [SortedMap.contains, park, SortedMap.get?_insert_ne _ _ h] at ht
      exact .inl ht

theorem advances_without (l : RequestLedger) (tokens : List RequestToken) :
    l.Advances (l.without tokens) where
  tokens := Nat.le_refl _
  tickets := Nat.le_refl _
  inFlight _ ht := .inl (isPending_without.mp ht).1
  parked _ := .inl

theorem advances_clear (l : RequestLedger) : l.Advances l.clear where
  tokens := Nat.le_refl _
  tickets := Nat.le_refl _
  inFlight token ht := by simp [isPending, clear, SortedMap.contains] at ht
  parked ticket ht := by simp [clear, SortedMap.contains] at ht

/-! ## How the calls change -/

/-- A request that is put in flight adds its call. -/
theorem Issued.callsInFlight_track {l : RequestLedger} (h : l.Issued) (p : PendingRequest) :
    (l.track p).callsInFlight.Perm (p.call :: l.callsInFlight) := by
  have := SortedMap.toList_insert_perm l.inFlight l.nextToken p
  rw [SortedMap.erase_of_absent h.nextToken_fresh] at this
  exact (this.map Prod.snd).map (·.call)

/-- A request that is parked adds its call. -/
theorem Issued.callsParked_park {l : RequestLedger} (h : l.Issued) (p : ParkedRequest) :
    (l.park p).callsParked.Perm (p.call :: l.callsParked) := by
  have := SortedMap.toList_insert_perm l.parked l.nextTicket p
  rw [SortedMap.erase_of_absent h.nextTicket_fresh] at this
  exact (this.map Prod.snd).map (·.call)

theorem unpark?_eq_some_iff {l l' : RequestLedger} {ticket : LookupTicket} {p : ParkedRequest} :
    l.unpark? ticket = some (p, l') ↔
      l.parked.get? ticket = some p ∧ l' = { l with parked := l.parked.erase ticket } := by
  simp only [unpark?, Option.map_eq_some_iff, Prod.mk.injEq]
  constructor
  · rintro ⟨q, hq, rfl, rfl⟩
    exact ⟨hq, rfl⟩
  · rintro ⟨hp, rfl⟩
    exact ⟨p, hp, rfl, rfl⟩

theorem unpark?_eq_none_iff {l : RequestLedger} {ticket : LookupTicket} :
    l.unpark? ticket = none ↔ l.parked.contains ticket = false := by
  simp [unpark?, SortedMap.contains]

/-- A request that is no longer parked takes its call away. -/
theorem callsParked_unpark {l l' : RequestLedger} {ticket : LookupTicket} {p : ParkedRequest}
    (h : l.unpark? ticket = some (p, l')) :
    l.callsParked.Perm (p.call :: l'.callsParked) := by
  obtain ⟨hp, rfl⟩ := unpark?_eq_some_iff.mp h
  exact ((SortedMap.toList_perm_erase hp).map Prod.snd).map (·.call)

theorem advances_unpark {l l' : RequestLedger} {ticket : LookupTicket} {p : ParkedRequest}
    (h : l.unpark? ticket = some (p, l')) : l.Advances l' := by
  obtain ⟨-, rfl⟩ := unpark?_eq_some_iff.mp h
  refine ⟨Nat.le_refl _, Nat.le_refl _, fun _ => .inl, fun t ht => .inl ?_⟩
  rw [SortedMap.contains, SortedMap.get?_erase] at ht
  by_cases heq : t = ticket
  · simp [heq] at ht
  · simpa [heq, SortedMap.contains] using ht

end Telepathy.RequestLedger

import Telepathy.Proofs.Request.Ledger
import Telepathy.Request.Report

set_option autoImplicit false

/-!
# What a report does to the ledger

Whatever a report says about the requests it names, it is carried out by taking these out of the
ledger and answering each of them once. So a batch of new channels is no different from claiming all
its tokens in a row, and a report is carried out exactly if its tokens are different, all in flight,
and no new channel is passed off as an old one.
-/

namespace Telepathy

/-- The requests that a report names. -/
def Report.tokens : Report → List RequestToken
  | newChannels batch => batch.flatMap (·.2)
  | alreadySatisfied token _ | failed token _ => [token]
  | closed _ => []

/-- A signal that speaks neither of the connection's status nor of the local user. -/
def Signal.IsModest : Signal → Prop
  | statusChanged _ _ | selfContactChanged _ _ => False
  | _ => True

/-- The call that an event answers, if it answers one. -/
def Event.answeredCall? : Event → Option CallId
  | answered call _ => some call
  | _ => none

/-- The calls that are answered by some events, in their order. -/
def answeredCalls (events : List Event) : List CallId := events.filterMap Event.answeredCall?

theorem answeredCalls_append (events events' : List Event) :
    answeredCalls (events ++ events') = answeredCalls events ++ answeredCalls events' :=
  List.filterMap_append

theorem answeredCalls_eq_nil {events : List Event}
    (h : ∀ e ∈ events, e.answeredCall? = none) : answeredCalls events = [] :=
  List.filterMap_eq_nil_iff.mpr h

theorem mem_answeredCalls {events : List Event} {call : CallId} :
    call ∈ answeredCalls events ↔ ∃ a, .answered call a ∈ events := by
  rw [answeredCalls, List.mem_filterMap]
  constructor
  · rintro ⟨e, he, hcall⟩
    cases e with
    | answered call' a =>
      cases hcall
      exact ⟨a, he⟩
    | _ => cases hcall
  · rintro ⟨a, ha⟩
    exact ⟨_, ha, rfl⟩

/-- A request of `call` is answered among some events: with a channel or with a failure. -/
def RequestAnswered (events : List Event) (call : CallId) : Prop :=
  ∃ a, .answered call a ∈ events ∧ a ≠ .returned .done

theorem answeredCalls_map {α : Type} (call : α → CallId) (answer : α → CallAnswer) (l : List α) :
    answeredCalls (l.map fun a => .answered (call a) (answer a)) = l.map call := by
  induction l with
  | nil => rfl
  | cons a l ih =>
    rw [List.map_cons, List.map_cons, ← ih]
    rfl

namespace SatisfiedRequests

theorem answers_map_fst (channel : ChannelDetails) (taken : Bool) (ps : List PendingRequest) :
    (answers channel taken ps).map Prod.fst = ps.map (·.call) := by
  induction ps generalizing taken with
  | nil => rfl
  | cons p ps ih =>
    unfold answers
    cases p.method <;> simp [ih]

/-- Every request that a channel satisfies is answered once. -/
theorem replies_map_fst (s : SatisfiedRequests) :
    s.replies.map Prod.fst = s.requests.map (·.call) :=
  answers_map_fst _ _ _

theorem ne_done_of_mem_answers {channel : ChannelDetails} {taken : Bool}
    {ps : List PendingRequest} {r : CallId × Reply} (h : r ∈ answers channel taken ps) :
    r.2 ≠ .done := by
  induction ps generalizing taken with
  | nil => cases h
  | cons p ps ih =>
    unfold answers at h
    cases hm : p.method <;> rw [hm] at h <;> obtain h | h := List.mem_cons.mp h
    all_goals first | exact ih h | (subst h; exact Reply.noConfusion)

end SatisfiedRequests

namespace RequestLedger

theorem claimAll_append (l : RequestLedger) (tokens tokens' : List RequestToken) :
    l.claimAll (tokens ++ tokens') = (do
      let (ps, l) ← l.claimAll tokens
      let (qs, l) ← l.claimAll tokens'
      return (ps ++ qs, l)) := by
  induction tokens generalizing l with
  | nil =>
    cases h : l.claimAll tokens' with
    | error e => simp [claimAll, h, bind, Except.bind]
    | ok r => simp [claimAll, h, bind, Except.bind, pure, Except.pure]
  | cons token tokens ih =>
    simp only [List.cons_append, claimAll, ih]
    cases l.claim token with
    | error e => rfl
    | ok r =>
      simp only [bind, Except.bind]
      cases r.2.claimAll tokens with
      | error e => rfl
      | ok r' =>
        simp only [pure, Except.pure]
        cases r'.2.claimAll tokens' with
        | error e => rfl
        | ok r'' => rfl

/-- A batch of new channels claims all its tokens in a row. -/
theorem claimBatch_map (l : RequestLedger) (batch : List (ChannelDetails × List RequestToken)) :
    (l.claimBatch batch).map (fun r => (r.1.flatMap (·.requests), r.2)) =
      l.claimAll (batch.flatMap (·.2)) := by
  induction batch generalizing l with
  | nil => rfl
  | cons entry batch ih =>
    rw [List.flatMap_cons, claimAll_append, claimBatch]
    cases l.claimAll entry.2 with
    | error e => rfl
    | ok r =>
      simp only [bind, Except.bind]
      rw [← ih r.2]
      cases r.2.claimBatch batch with
      | error e => rfl
      | ok r' => rfl

theorem answeredCalls_announce (path : ObjectPath) (batch : List SatisfiedRequests) :
    answeredCalls (announce path batch) = (batch.flatMap (·.requests)).map (·.call) := by
  have hsignals : answeredCalls (batch.map fun s => Event.signal path s.announcement) = [] :=
    answeredCalls_eq_nil fun e he => by
      obtain ⟨s, -, rfl⟩ := List.mem_map.mp he
      rfl
  have hreplies : (batch.flatMap (·.replies)).map Prod.fst =
      (batch.flatMap (·.requests)).map (·.call) := by
    simp only [List.map_flatMap, SatisfiedRequests.replies_map_fst]
  rw [announce, List.cons_append, ← hreplies]
  show answeredCalls (_ ++ _) = _
  rw [answeredCalls_append, hsignals, List.nil_append]
  exact answeredCalls_map Prod.fst (fun r => .returned r.2) _

/-- A report that is carried out names different requests in flight; it takes these out of the
ledger and answers them, each once and in the order of the report. -/
theorem settle_spec {l : RequestLedger} {path : ObjectPath} {r : Report} {s : Settlement}
    (h : l.settle path r = .ok s) :
    ∃ ps : List PendingRequest, r.tokens.Nodup ∧
      r.tokens.map l.inFlight.get? = ps.map some ∧
      s.ledger = l.without r.tokens ∧
      answeredCalls s.events = ps.map (·.call) ∧
      s.released = ps.filterMap (·.target) := by
  have hone : ∀ {token : RequestToken} {p : PendingRequest} {l₁ : RequestLedger},
      l.claim token = .ok (p, l₁) → [token].map l.inFlight.get? = [p].map some ∧
        l₁ = l.without [token] := fun hc => by
    obtain ⟨hp, rfl⟩ := claim_eq_ok_iff.mp hc
    exact ⟨by simp [hp], rfl⟩
  have htarget : ∀ p : PendingRequest, p.target.toList = [p].filterMap (·.target) := fun p => by
    cases hp : p.target <;> simp [hp]
  cases r with
  | newChannels batch =>
    cases batch with
    | nil =>
      cases h
      exact ⟨[], .nil, rfl, (without_nil l).symm, rfl, rfl⟩
    | cons entry batch =>
      obtain ⟨⟨ss, l'⟩, hclaim, h⟩ := Except.bind_eq_ok.mp h
      cases h
      have hall : l.claimAll ((entry :: batch).flatMap (·.2)) =
          .ok (ss.flatMap (·.requests), l') := by rw [← claimBatch_map, hclaim]; rfl
      obtain ⟨hnodup, hps, rfl⟩ := claimAll_eq_ok_iff.mp hall
      exact ⟨_, hnodup, hps, rfl, answeredCalls_announce _ _, List.filterMap_flatMap.symm⟩
  | alreadySatisfied token channel =>
    obtain ⟨⟨p, l'⟩, hclaim, h⟩ := Except.bind_eq_ok.mp h
    obtain ⟨hp, rfl⟩ := hone hclaim
    refine ⟨[p], by simp [Report.tokens], hp, ?_⟩
    cases hm : p.method with
    | create => simp [hm] at h
    | ensure =>
      simp only [hm] at h
      cases h
      exact ⟨rfl, rfl, htarget p⟩
    | legacy suppress =>
      simp only [hm] at h
      cases h
      exact ⟨rfl, rfl, htarget p⟩
  | failed token e =>
    obtain ⟨⟨p, l'⟩, hclaim, h⟩ := Except.bind_eq_ok.mp h
    obtain ⟨hp, rfl⟩ := hone hclaim
    cases h
    exact ⟨[p], by simp [Report.tokens], hp, rfl, rfl, htarget p⟩
  | closed channel =>
    cases h
    exact ⟨[], .nil, rfl, (without_nil l).symm, rfl, rfl⟩

/-- A report leads to signals about channels and to answers, and whoever is answered gets a channel
or a failure. -/
theorem mem_settle_events {l : RequestLedger} {path : ObjectPath} {r : Report} {s : Settlement}
    (h : l.settle path r = .ok s) {e : Event} (he : e ∈ s.events) :
    (∃ path signal, e = .signal path signal ∧ signal.IsModest) ∨
      ∃ call a, e = .answered call a ∧ a ≠ .returned .done := by
  cases r with
  | newChannels batch =>
    cases batch with
    | nil =>
      cases h
      cases he
    | cons entry batch =>
      obtain ⟨⟨ss, l'⟩, -, h⟩ := Except.bind_eq_ok.mp h
      cases h
      rw [announce, List.cons_append, List.mem_cons, List.mem_append, List.mem_map,
        List.mem_map] at he
      obtain he | ⟨s, -, he⟩ | ⟨reply, hreply, he⟩ := he
      · exact .inl ⟨_, _, he, trivial⟩
      · exact .inl ⟨_, _, he.symm, trivial⟩
      · obtain ⟨s, -, hmem⟩ := List.mem_flatMap.mp hreply
        refine .inr ⟨_, _, he.symm, fun hdone => ?_⟩
        exact SatisfiedRequests.ne_done_of_mem_answers hmem (CallAnswer.returned.inj hdone)
  | alreadySatisfied token channel =>
    obtain ⟨⟨p, l'⟩, -, h⟩ := Except.bind_eq_ok.mp h
    cases hm : p.method <;> simp only [hm] at h <;> cases h
    · exact .inr ⟨_, _, List.mem_singleton.mp he, by simp⟩
    · exact .inr ⟨_, _, List.mem_singleton.mp he, by simp⟩
  | failed token e =>
    obtain ⟨⟨p, l'⟩, -, h⟩ := Except.bind_eq_ok.mp h
    cases h
    exact .inr ⟨_, _, List.mem_singleton.mp he, by simp⟩
  | closed channel =>
    cases h
    exact .inl ⟨_, _, List.mem_singleton.mp he, trivial⟩

/-- The requests in flight under some tokens, in the order of these. -/
def waiting (l : RequestLedger) (tokens : List RequestToken) : List PendingRequest :=
  tokens.filterMap l.inFlight.get?

/-- Among tokens in flight there is one request for each. -/
theorem waiting_map_some {l : RequestLedger} {tokens : List RequestToken}
    (h : ∀ token ∈ tokens, l.isPending token = true) :
    tokens.map l.inFlight.get? = (l.waiting tokens).map some := by
  induction tokens with
  | nil => rfl
  | cons token tokens ih =>
    obtain ⟨p, hp⟩ := isPending_iff.mp (h token List.mem_cons_self)
    have hrest := ih fun t ht => h t (List.mem_cons_of_mem _ ht)
    simp only [waiting, List.map_cons, List.filterMap_cons, hp, hrest]

/-- A report is carried out if its requests are different and in flight, and none of them asked for
a new channel that it does not get. -/
theorem settle_isOk {l : RequestLedger} (path : ObjectPath) {r : Report} (hnodup : r.tokens.Nodup)
    (hpending : ∀ token ∈ r.tokens, l.isPending token = true)
    (hcreate : ∀ token channel p, r = .alreadySatisfied token channel →
      l.inFlight.get? token = some p → p.method ≠ .create) :
    ∃ s, l.settle path r = .ok s := by
  cases r with
  | newChannels batch =>
    cases batch with
    | nil => exact ⟨_, rfl⟩
    | cons entry batch =>
      have hall := claimAll_eq_ok_iff.mpr ⟨hnodup, waiting_map_some hpending, rfl⟩
      rw [Report.tokens, ← claimBatch_map] at hall
      obtain ⟨⟨ss, l'⟩, hclaim, -⟩ := Except.map_eq_ok.mp hall
      exact ⟨_, Except.bind_eq_ok.mpr ⟨_, hclaim, rfl⟩⟩
  | alreadySatisfied token channel =>
    obtain ⟨p, hp⟩ := isPending_iff.mp (hpending token List.mem_cons_self)
    have hclaim := claim_eq_ok_iff.mpr ⟨hp, rfl⟩
    have hm := hcreate token channel p rfl hp
    cases hmethod : p.method with
    | create => exact absurd hmethod hm
    | ensure => exact ⟨_, Except.bind_eq_ok.mpr ⟨_, hclaim, by simp only [hmethod]; rfl⟩⟩
    | legacy suppress => exact ⟨_, Except.bind_eq_ok.mpr ⟨_, hclaim, by simp only [hmethod]; rfl⟩⟩
  | failed token e =>
    obtain ⟨p, hp⟩ := isPending_iff.mp (hpending token List.mem_cons_self)
    exact ⟨_, Except.bind_eq_ok.mpr ⟨_, claim_eq_ok_iff.mpr ⟨hp, rfl⟩, rfl⟩⟩
  | closed channel => exact ⟨_, rfl⟩

end RequestLedger

end Telepathy

import Telepathy.Proofs.Connection.Replies
import Telepathy.Proofs.Connection.Stages

set_option autoImplicit false

/-!
# How requests leave

A request that is in flight when an operation begins leaves in one of two ways: a manager reports on
it, in its turn or from outside, or the connection is disconnected. A report that names a request
twice, or one that is not in flight, is never carried out. So one report is all it takes, and all
there can be.
-/

namespace Telepathy

theorem RequestLedger.isPending_eq_false_iff {l : RequestLedger} {token : RequestToken} :
    l.isPending token = false ↔ l.inFlight.get? token = none :=
  Option.isSome_eq_false_iff.trans Option.isNone_iff_eq_none

namespace Connection

variable {σ ρ : Type} {start c c₁ c₂ : Connection σ ρ} {op : Operation σ ρ} {seat : Nat}
  {token : RequestToken} {p : PendingRequest}

/-! ## Reports -/

/-- Reports that are carried out name different requests, all of them in flight. -/
theorem reported_of_performAll {effects : List Effect}
    (h : effects.foldlM (perform seat) c = .ok c₁) :
    (reportedTokens effects).Nodup ∧
      ∀ token ∈ reportedTokens effects, c.ledger.isPending token = true := by
  induction effects generalizing c with
  | nil => exact ⟨.nil, by simp [reportedTokens]⟩
  | cons e effects ih =>
    obtain ⟨c', hfirst, hrest⟩ := Except.bind_eq_ok.mp (by rwa [List.foldlM_cons] at h)
    obtain ⟨hnodup, hpending⟩ := ih hrest
    have hledger := (perform_eq_ok hfirst).1
    have hnamed : e.tokens.Nodup ∧ ∀ token ∈ e.tokens, c.ledger.isPending token = true := by
      cases e with
      | report r =>
        obtain ⟨s, hs, -⟩ := settle_cases (Except.mapError_eq_ok.mp hfirst)
        obtain ⟨ps, hnodup, hps, -⟩ := RequestLedger.settle_spec hs
        refine ⟨hnodup, fun token ht => ?_⟩
        obtain ⟨p, -, hp⟩ := RequestLedger.mem_of_claimed hps ht
        exact RequestLedger.isPending_iff.mpr ⟨p, hp⟩
      | signal path s => exact ⟨.nil, by simp [Effect.tokens]⟩
      | called call => exact ⟨.nil, by simp [Effect.tokens]⟩
    have hsplit : reportedTokens (e :: effects) = e.tokens ++ reportedTokens effects := rfl
    have hleft : ∀ token ∈ reportedTokens effects,
        c.ledger.isPending token = true ∧ token ∉ e.tokens := fun token ht =>
      RequestLedger.isPending_without.mp (hledger ▸ hpending token ht)
    rw [hsplit]
    refine ⟨List.nodup_append.mpr ⟨hnamed.1, hnodup, fun t ht t' ht' heq => ?_⟩,
      fun token ht => ?_⟩
    · exact (hleft t' ht').2 (heq ▸ ht)
    · exact (List.mem_append.mp ht).elim (hnamed.2 token) fun ht => (hleft token ht).1

theorem reported_of_takeTurn {t : Turn σ ρ} (h : c.takeTurn seat t = .ok c₁) :
    (reportedTokens t.effects).Nodup ∧
      ∀ token ∈ reportedTokens t.effects, c.ledger.isPending token = true := by
  have hperform : t.effects.foldlM (perform seat)
      { c with managers := c.managers.set seat t.manager, tables := t.tables } = .ok c₁ := h
  have hreported := reported_of_performAll hperform
  exact hreported

/-- A request is in flight, and a report on it is carried out unless it passes an old channel off as
the new one that was asked for. -/
structure AwaitsReport (c : Connection σ ρ) (token : RequestToken) (p : PendingRequest) :
    Prop where
  inFlight : c.ledger.inFlight.get? token = some p
  settles : ∀ report : Report, report.tokens = [token] →
    (∀ channel, report = .alreadySatisfied token channel → p.method ≠ .create) →
      ∃ c', c.settle report = .ok c'

/-- Whatever is in flight may be reported on. -/
theorem awaitsReport_of_inFlight (hp : c.ledger.inFlight.get? token = some p) :
    c.AwaitsReport token p := by
  refine ⟨hp, fun report hone hold => ?_⟩
  have hpending : ∀ t ∈ report.tokens, c.ledger.isPending t = true := fun t ht => by
    rw [hone, List.mem_singleton] at ht
    exact ht ▸ RequestLedger.isPending_iff.mpr ⟨p, hp⟩
  have hreused : ∀ t channel q, report = .alreadySatisfied t channel →
      c.ledger.inFlight.get? t = some q → q.method ≠ .create := fun t channel q hr hq => by
    obtain rfl : t = token := by
      rw [hr] at hone
      exact List.singleton_inj.mp hone
    exact Option.some.inj (hp.symm.trans hq) ▸ hold channel hr
  obtain ⟨s, hs⟩ := c.ledger.settle_isOk c.names.path (by simp [hone]) hpending hreused
  exact ⟨_, by simp only [settle, hs]; rfl⟩

/-- Nobody can report on a request that is not in flight. -/
theorem settle_of_absent {report : Report} {token : RequestToken} (hmem : token ∈ report.tokens)
    (habsent : c.ledger.isPending token = false) : ∃ crash, c.settle report = .error crash := by
  cases hsettle : c.settle report with
  | error crash => exact ⟨crash, rfl⟩
  | ok c' =>
    obtain ⟨s, hs, -⟩ := settle_cases hsettle
    obtain ⟨ps, -, hps, -⟩ := RequestLedger.settle_spec hs
    obtain ⟨p, -, hp⟩ := RequestLedger.mem_of_claimed hps hmem
    cases (RequestLedger.isPending_eq_false_iff.mp habsent).symm.trans hp

/-! ## Stages -/

/-- A stage of an operation on `start` by which a request leaves. -/
inductive Departs (start : Connection σ ρ) (op : Operation σ ρ) (token : RequestToken) :
    Connection σ ρ → Connection σ ρ → Prop
  /-- A manager reports on it, once, when its turn comes. -/
  | turn {c c' : Connection σ ρ} {seat : Nat} {m : Manager σ ρ} {t : Turn σ ρ}
      (hm : c.managers[seat]? = some m) (ht : m.Ends start op seat c.status c.tables t)
      (h : c.takeTurn seat t = .ok c') (hone : (reportedTokens t.effects).count token = 1) :
      Departs start op token c c'
  /-- A manager reports on it, once, between its turns. -/
  | report {c c' : Connection σ ρ} {r : Report} (hop : op = .report r) (h : c.settle r = .ok c')
      (hone : r.tokens.count token = 1) : Departs start op token c c'
  | disconnected {c c' : Connection σ ρ} (hgone : c.status = .disconnected)
      (h : c'.ledger.inFlight = .empty) : Departs start op token c c'

/-- In the course of an operation a request leaves that was in flight until then. -/
def Discharges (c : Connection σ ρ) (op : Operation σ ρ) (token : RequestToken) (p : PendingRequest)
    (c' : Connection σ ρ) : Prop :=
  ∃ c₁ c₂, Stages c op c c₁ ∧ c₁.ledger.inFlight.get? token = some p ∧
    Departs c op token c₁ c₂ ∧ Stages c op c₂ c'

/-- A request that was there before the operation stays in flight, or this is where it leaves. -/
theorem Stage.departs (h : Stage start op c c₁) (hissued : token.number ≤ start.ledger.tokens)
    (hp : c.ledger.inFlight.get? token = some p) :
    c₁.ledger.inFlight.get? token = some p ∨ Departs start op token c c₁ := by
  have hbus : ∀ {c₁ : Connection σ ρ}, c.OnBus c₁ →
      c₁.ledger.inFlight.get? token = some p ∨ Departs start op token c c₁ := by
    intro c₁ h
    rw [h.frame]
    exact .inl hp
  cases h with
  | @turn _ seat m t hm ht hturn =>
    by_cases hmem : token ∈ reportedTokens t.effects
    · have hnodup := (reported_of_takeTurn hturn).1
      exact .inr (.turn hm ht hturn (hnodup.count.trans (if_pos hmem)))
    · rw [(takeTurn_eq_ok hturn).1, RequestLedger.get?_without, if_neg hmem]
      exact .inl hp
  | @settle _ r hop hsettle =>
    by_cases hmem : token ∈ r.tokens
    · obtain ⟨s, hs, -⟩ := settle_cases hsettle
      obtain ⟨ps, hnodup, -⟩ := RequestLedger.settle_spec hs
      exact .inr (.report hop hsettle (hnodup.count.trans (if_pos hmem)))
    · rw [(settle_eq_ok hsettle).1, RequestLedger.get?_without, if_neg hmem]
      exact .inl hp
  | register hop => exact hbus (onBus_register c)
  | loseName hop => exact hbus (onBus_loseName c)
  | losePath hop => exact hbus (onBus_losePath c)
  | leave hstatus hover => exact hbus (onBus_leave c)
  | account hevolves hexchanges hkeeps hparks hflight =>
    rcases hflight with ⟨hgone, hempty⟩ | hretains
    · exact .inr (.disconnected hgone hempty)
    · exact .inl ((hretains token hissued).trans hp)
  | _ => exact .inl hp

theorem Stages.departs (h : Stages c op c c₁) (hissued : token.number ≤ c.ledger.tokens)
    (hp : c.ledger.inFlight.get? token = some p) :
    c₁.ledger.inFlight.get? token = some p ∨ c.Discharges op token p c₁ := by
  induction h with
  | refl => exact .inl hp
  | tail hstages hlast ih =>
    rcases ih with hp' | ⟨c₁, c₂, hbefore, hp', hdeparts, hafter⟩
    · rcases hlast.departs hissued hp' with hp'' | hdeparts
      · exact .inl hp''
      · exact .inr ⟨_, _, hstages, hp', hdeparts, .refl⟩
    · exact .inr ⟨c₁, c₂, hbefore, hp', hdeparts, hafter.tail hlast⟩

/-- A request that is not in flight does not come back. -/
theorem Stage.absent (h : Stage start op c c₁) (hissued : token.number ≤ start.ledger.tokens)
    (hnone : c.ledger.inFlight.get? token = none) : c₁.ledger.inFlight.get? token = none := by
  have hwithout : ∀ tokens, (c.ledger.without tokens).inFlight.get? token = none := fun tokens => by
    rw [RequestLedger.get?_without, hnone, ite_self]
  have hbus : ∀ {c₁ : Connection σ ρ}, c.OnBus c₁ → c₁.ledger.inFlight.get? token = none := by
    intro c₁ h
    rw [h.frame]
    exact hnone
  cases h with
  | turn hm ht hturn => exact (takeTurn_eq_ok hturn).1 ▸ hwithout _
  | settle hop hsettle => exact (settle_eq_ok hsettle).1 ▸ hwithout _
  | register hop => exact hbus (onBus_register c)
  | loseName hop => exact hbus (onBus_loseName c)
  | losePath hop => exact hbus (onBus_losePath c)
  | leave hstatus hover => exact hbus (onBus_leave c)
  | account hevolves hexchanges hkeeps hparks hflight =>
    rcases hflight with ⟨-, hempty⟩ | hretains
    · rw [hempty, SortedMap.get?_empty]
    · exact (hretains token hissued).trans hnone
  | _ => exact hnone

theorem Departs.absent (h : Departs start op token c c₁) :
    c₁.ledger.inFlight.get? token = none := by
  cases h with
  | turn hm ht hturn hone =>
    rw [(takeTurn_eq_ok hturn).1, RequestLedger.get?_without,
      if_pos (List.count_pos_iff.mp (by omega))]
  | report hop hsettle hone =>
    rw [(settle_eq_ok hsettle).1, RequestLedger.get?_without,
      if_pos (List.count_pos_iff.mp (by omega))]
  | disconnected hgone hempty => rw [hempty, SortedMap.get?_empty]

theorem Discharges.absent (h : c.Discharges op token p c₁)
    (hissued : token.number ≤ c.ledger.tokens) : c₁.ledger.inFlight.get? token = none := by
  obtain ⟨_, _, -, -, hdeparts, hafter⟩ := h
  have habsent := hdeparts.absent
  clear hdeparts
  induction hafter with
  | refl => exact habsent
  | tail _ hlast ih => exact hlast.absent hissued ih

/-! ## Runs -/

/-- Among some operations is one in which a request leaves, which was in flight until then. -/
def DischargedIn (c : Connection σ ρ) (token : RequestToken) (p : PendingRequest)
    (ops : List (Operation σ ρ)) : Prop :=
  ∃ before op later c₁ out, ops = before ++ op :: later ∧ c.run before = .ok c₁ ∧
    c₁.ledger.inFlight.get? token = some p ∧ c₁.step op = .ok out ∧
    c₁.Discharges op token p out.2

/-- A request in flight stays there as it is until an operation in which it leaves; from then on it
is resolved. -/
theorem Orderly.departs (hc : c.Orderly) (hp : c.ledger.inFlight.get? token = some p)
    {ops : List (Operation σ ρ)} (h : c.run ops = .ok c₁) :
    c₁.ledger.inFlight.get? token = some p ∨
      c.DischargedIn token p ops ∧ c₁.ledger.Resolved token := by
  induction ops generalizing c with
  | nil =>
    cases h
    exact .inl hp
  | cons op ops ih =>
    obtain ⟨out, hstep, hrest⟩ := run_cons.mp h
    have hfirst := hc.step hstep
    have hissued : token.number ≤ c.ledger.tokens :=
      hc.issued.tokens token (RequestLedger.isPending_iff.mpr ⟨p, hp⟩)
    rcases (stages_step hstep).departs hissued hp with hstays | hdischarges
    · rcases ih hfirst.orderly hstays hrest with hstill | ⟨hlater, hresolved⟩
      · exact .inl hstill
      · obtain ⟨before, op', later, c', out', rfl, hbefore, hleaves⟩ := hlater
        exact .inr ⟨⟨op :: before, op', later, c', out', rfl,
          run_cons.mpr ⟨out, hstep, hbefore⟩, hleaves⟩, hresolved⟩
    · have hresolved : out.2.ledger.Resolved token :=
        ⟨Nat.le_trans hissued hfirst.advances.tokens,
          RequestLedger.isPending_eq_false_iff.mpr (hdischarges.absent hissued)⟩
      exact .inr ⟨⟨[], op, ops, c, out, rfl, rfl, hp, hstep, hdischarges⟩,
        hresolved.of_advances (hfirst.orderly.run hrest).advances⟩

end Connection

end Telepathy

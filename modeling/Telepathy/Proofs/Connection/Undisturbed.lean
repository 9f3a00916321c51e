import Telepathy.Connection.Operation
import Telepathy.Proofs.Request.Ledger

set_option autoImplicit false

/-!
# What managers do not notice

Most operations are nothing to the managers, nor to the requests in flight: no manager is called,
nothing is offered, and no request comes into flight or leaves it. `Undisturbed` says this of an
operation or a stage of one, so that laws about managers and requests need not look into these.
-/

namespace Telepathy.Connection

variable {σ ρ : Type} {c c₁ c₂ : Connection σ ρ}

theorem offers_record (c : Connection σ ρ) {events : List Event}
    (h : ∀ e ∈ events, ∀ seat r, e ≠ .offered seat r) : (c.record events).offers = c.offers := by
  rw [offers, record, List.filterMap_append, offers]
  refine List.append_right_eq_self.mpr (List.filterMap_eq_nil_iff.mpr fun e he => ?_)
  cases e with
  | offered seat r => exact absurd rfl (h _ he seat r)
  | _ => rfl

/-- What is nothing to the managers, nor to the requests in flight. -/
structure Undisturbed (c c' : Connection σ ρ) : Prop where
  tokens : c'.ledger.tokens = c.ledger.tokens
  inFlight : c'.ledger.inFlight = c.ledger.inFlight
  managers : c'.managers = c.managers
  offers : c'.offers = c.offers

namespace Undisturbed

theorem refl (c : Connection σ ρ) : c.Undisturbed c := ⟨rfl, rfl, rfl, rfl⟩

theorem trans (h : c.Undisturbed c₁) (h' : c₁.Undisturbed c₂) : c.Undisturbed c₂ :=
  ⟨h'.tokens.trans h.tokens, h'.inFlight.trans h.inFlight, h'.managers.trans h.managers,
    h'.offers.trans h.offers⟩

theorem record (c : Connection σ ρ) {events : List Event}
    (h : ∀ e ∈ events, ∀ seat r, e ≠ .offered seat r) : c.Undisturbed (c.record events) :=
  ⟨rfl, rfl, rfl, offers_record c h⟩

end Undisturbed

/-! ## Stages of operations -/

theorem undisturbed_withdraw (c : Connection σ ρ) : c.Undisturbed c.withdraw := by
  unfold withdraw
  by_cases h : c.registered = true
  · rw [if_pos h]
    exact ⟨rfl, rfl, rfl, offers_record _ (by simp)⟩
  · rw [if_neg h]
    exact .refl c

theorem undisturbed_finishShutdown (c : Connection σ ρ) : c.Undisturbed c.finishShutdown := by
  unfold Connection.finishShutdown
  by_cases h : c.status = .disconnected ∧ c.shutDown = false
  · rw [if_pos h]
    have hmarked : c.Undisturbed { c with shutDown := true } := ⟨rfl, rfl, rfl, rfl⟩
    refine (hmarked.trans (undisturbed_withdraw _)).trans ⟨rfl, rfl, rfl, ?_⟩
    refine offers_record _ fun e he seat r heq => ?_
    obtain ⟨call, -, rfl⟩ := List.mem_map.mp he
    cases heq
  · rw [if_neg h]
    exact .refl c

theorem undisturbed_shutDownBackend (c : Connection σ ρ) : c.Undisturbed c.shutDownBackend := by
  have hhook : c.Undisturbed (c.record [.hook .shutDown]) := .record c (by simp)
  unfold Connection.shutDownBackend
  by_cases hdefers : c.backend.defersShutdown = true
  · exact (if_pos hdefers).symm ▸ hhook
  · exact (if_neg hdefers).symm ▸ hhook.trans (undisturbed_finishShutdown _)

theorem undisturbed_forgetInterests (c : Connection σ ρ) : c.Undisturbed c.forgetInterests := by
  refine ⟨rfl, rfl, rfl, offers_record _ fun e he seat r heq => ?_⟩
  obtain ⟨client, -, rfl⟩ := List.mem_map.mp he
  cases heq

theorem undisturbed_tearDown (c : Connection σ ρ) :
    c.failOutstanding.Undisturbed c.tearDown := by
  have hforgot : c.failOutstanding.Undisturbed c.failOutstanding.forgetSelf := ⟨rfl, rfl, rfl, rfl⟩
  exact (hforgot.trans (undisturbed_forgetInterests _)).trans (undisturbed_shutDownBackend _)

/-! ## Operations -/

theorem undisturbed_failLookup (c : Connection σ ρ) (ticket : LookupTicket) (e : Error) :
    c.Undisturbed (c.failLookup ticket e).2 := by
  unfold Connection.failLookup
  cases hunpark : c.ledger.unpark? ticket with
  | none => exact .refl c
  | some taken =>
    obtain ⟨p, l⟩ := taken
    obtain ⟨-, rfl⟩ := RequestLedger.unpark?_eq_some_iff.mp hunpark
    exact ⟨rfl, rfl, rfl, offers_record _ (by simp)⟩

theorem undisturbed_beginLookup (c : Connection σ ρ) (call : CallId) (r : ValidRequest)
    (entity : EntityType) (id : String) : c.Undisturbed (c.beginLookup call r entity id) := by
  have hparked : c.Undisturbed ({ c with ledger := c.ledger.park ⟨call, r⟩ }.record
      [.lookup c.ledger.nextTicket entity id]) := ⟨rfl, rfl, rfl, offers_record _ (by simp)⟩
  unfold Connection.beginLookup
  cases hfailure : c.backend.lookupFailure c.ledger.nextTicket entity id with
  | none =>
    simp only [Connection.record, hfailure]
    exact hparked
  | some e =>
    simp only [Connection.record, hfailure]
    exact hparked.trans (undisturbed_failLookup _ _ e)

theorem undisturbed_register (c : Connection σ ρ) : c.Undisturbed c.register.2 := by
  unfold Connection.register
  cases c.config.validate with
  | error e => exact .refl c
  | ok valid =>
    cases c.bus.claimName c.names.busName with
    | error r => exact .record c (by simp)
    | ok bus =>
      have hnamed : c.Undisturbed (c.record [.nameClaimed c.names.busName true]) :=
        .record c (by simp)
      simp only
      cases bus.exportObject (c.record [.nameClaimed c.names.busName true]).names.path
        (c.record [.nameClaimed c.names.busName true]).interfaces with
      | error r => exact hnamed.trans ⟨rfl, rfl, rfl, offers_record _ (by simp)⟩
      | ok bus => exact hnamed.trans ⟨rfl, rfl, rfl, offers_record _ (by simp)⟩

theorem undisturbed_loseName (c : Connection σ ρ) : c.Undisturbed c.loseName.2 := by
  unfold Connection.loseName
  cases c.bus.claimName c.names.busName with
  | error r => exact .record c (by simp)
  | ok bus => exact ⟨rfl, rfl, rfl, offers_record _ (by simp)⟩

theorem undisturbed_losePath (c : Connection σ ρ) : c.Undisturbed c.losePath.2 := by
  unfold Connection.losePath
  cases c.bus.exportObject c.names.path [] with
  | error r => exact .record c (by simp)
  | ok bus => exact ⟨rfl, rfl, rfl, offers_record _ (by simp)⟩

theorem undisturbed_setSelf (c : Connection σ ρ) (h : Handle) : c.Undisturbed (c.setSelf h) := by
  unfold Connection.setSelf
  by_cases hgone : c.status = .disconnected
  · rw [if_pos hgone]
    exact .refl c
  · rw [if_neg hgone]
    by_cases hnews : c.self ≠ some h ∧ c.status = .connected
    · exact (if_pos hnews).symm ▸ ⟨rfl, rfl, rfl, offers_record _ (by simp)⟩
    · exact (if_neg hnews).symm ▸ ⟨rfl, rfl, rfl, rfl⟩

theorem undisturbed_nameSelf (c : Connection σ ρ) (name : ContactName) :
    c.Undisturbed (c.nameSelf name).2 := by
  have hresolve : c.Undisturbed (c.resolveContact name).2 := ⟨rfl, rfl, rfl, rfl⟩
  unfold Connection.nameSelf
  generalize c.resolveContact name = resolved at hresolve
  obtain ⟨found, c'⟩ := resolved
  cases found with
  | error e => exact hresolve
  | ok h => exact hresolve.trans (undisturbed_setSelf c' h)

theorem undisturbed_internKept (c : Connection σ ρ) (entity : EntityType) (id : String)
    (keep : Option String) : c.Undisturbed (c.internKept entity id keep).2 := by
  unfold Connection.internKept
  cases c.tables.intern entity id with
  | error e => exact .refl c
  | ok interned =>
    cases keep with
    | none => exact ⟨rfl, rfl, rfl, rfl⟩
    | some name => exact ⟨rfl, rfl, rfl, rfl⟩

theorem undisturbed_applyInterest (c : Connection σ ρ) (client : ClientName)
    (change : InterestTable × InterestUpdate) :
    c.Undisturbed (c.applyInterest client change) := by
  have hwatch : c.Undisturbed ({ c with interests := change.1 }.watchAs client change.2.watch) := by
    cases change.2.watch with
    | keep => exact ⟨rfl, rfl, rfl, rfl⟩
    | start => exact ⟨rfl, rfl, rfl, offers_record _ (by simp)⟩
    | stop => exact ⟨rfl, rfl, rfl, offers_record _ (by simp)⟩
  refine hwatch.trans (.record _ fun e he seat r heq => ?_)
  obtain ⟨t, -, rfl⟩ := List.mem_map.mp he
  cases heq

theorem undisturbed_addInterest (c : Connection σ ρ) (client : ClientName)
    (tokens : List String) : c.Undisturbed (c.addInterest client tokens).2 := by
  unfold addInterest
  by_cases hgone : c.status = .disconnected
  · rw [if_pos hgone]
    exact .refl c
  · rw [if_neg hgone]
    exact undisturbed_applyInterest c client _

end Telepathy.Connection

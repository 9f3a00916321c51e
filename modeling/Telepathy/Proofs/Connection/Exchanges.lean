import Telepathy.Connection.Operation
import Telepathy.Proofs.Connection.Turn
import Telepathy.Proofs.Handle.Naming

set_option autoImplicit false

/-!
# References in trust

A connection holds references for the requests in flight, on their targets, and it keeps those that
others than itself and its managers take under names. Whatever it does about these is an exchange:
each reference that is taken or given back is counted in the handle tables. What anybody else holds
is not touched, so it is a frame that every exchange leaves alone.
-/

namespace Telepathy

namespace RequestLedger

variable {l : RequestLedger}

theorem Issued.holds_track (h : l.Issued) (p : PendingRequest) :
    (l.track p).holds.Perm (p.target.toList ++ l.holds) := by
  have hvalues : (l.track p).inFlight.values.Perm (p :: l.inFlight.values) := by
    have hentries := SortedMap.toList_insert_perm l.inFlight l.nextToken p
    rw [SortedMap.erase_of_absent h.nextToken_fresh] at hentries
    exact hentries.map Prod.snd
  have htargets := hvalues.filterMap (·.target)
  cases hp : p.target with
  | none => rwa [List.filterMap_cons_none hp] at htargets
  | some r => rwa [List.filterMap_cons_some hp] at htargets

/-- What requests hold is held by those that are claimed and by those that stay. -/
theorem holds_claimed {tokens : List RequestToken} {ps : List PendingRequest}
    (hnodup : tokens.Nodup) (hps : tokens.map l.inFlight.get? = ps.map some) :
    l.holds.Perm (ps.filterMap (·.target) ++ (l.without tokens).holds) := by
  have htargets := (inFlight_perm_claimed hnodup hps).filterMap (·.target)
  rwa [List.filterMap_append] at htargets

end RequestLedger

namespace Connection

variable {σ ρ : Type} {c c₁ c₂ : Connection σ ρ}

/-- Between two connections, whatever was taken or given back for requests in flight, or for those
who keep references under names, was counted in the tables. -/
structure Exchanges (c c' : Connection σ ρ) : Prop where
  issued : c.ledger.Issued → c'.ledger.Issued
  counts : c.ledger.Issued → ∀ others,
    c.tables.Counts (c.kept.values ++ c.ledger.holds ++ others) →
      c'.tables.Counts (c'.kept.values ++ c'.ledger.holds ++ others)

namespace Exchanges

theorem refl (c : Connection σ ρ) : c.Exchanges c := ⟨id, fun _ _ h => h⟩

theorem trans (h : c.Exchanges c₁) (h' : c₁.Exchanges c₂) : c.Exchanges c₂ :=
  ⟨fun hissued => h'.issued (h.issued hissued), fun hissued others hcounts =>
    h'.counts (h.issued hissued) others (h.counts hissued others hcounts)⟩

end Exchanges

/-! ## Tables -/

theorem exchanges_interns {tables : HandleTables} (h : c.tables.Interns tables) :
    c.Exchanges { c with tables } :=
  ⟨id, fun _ _ hcounts => h.counts hcounts⟩

theorem exchanges_collect (c : Connection σ ρ) : c.Exchanges c.collect.2 :=
  ⟨id, fun _ _ hcounts => hcounts.tidied c.tables.tidied_collect⟩

/-! ## Requests -/

/-- To park a request or to take one from its ticket moves no reference. -/
theorem exchanges_ledger {ledger : RequestLedger} (hadvances : c.ledger.Advances ledger)
    (hflight : ledger.inFlight = c.ledger.inFlight) : c.Exchanges { c with ledger } := by
  refine ⟨fun hissued => hissued.of_advances hadvances, fun _ others hcounts => ?_⟩
  have hholds : ledger.holds = c.ledger.holds := by rw [RequestLedger.holds, hflight]; rfl
  rwa [← hholds] at hcounts

theorem exchanges_track {p : PendingRequest}
    (hvalid : ∀ r ∈ p.target.toList, c.tables.isValid r = true) :
    c.Exchanges
      { c with
        ledger := c.ledger.track p
        tables := c.tables.retainAll p.target.toList } := by
  refine ⟨fun hissued => hissued.of_advances (c.ledger.advances_track p),
    fun hissued others hcounts => (hcounts.retainAll hvalid).of_perm ?_⟩
  refine List.perm_iff_count.mpr fun x => ?_
  have hholds := (hissued.holds_track p).count_eq x
  simp only [List.count_append] at hholds ⊢
  omega

/-- Requests that are claimed give back what they hold. -/
theorem exchanges_claimed {tokens : List RequestToken} {ps : List PendingRequest}
    (hnodup : tokens.Nodup) (hps : tokens.map c.ledger.inFlight.get? = ps.map some) :
    c.Exchanges
      { c with
        ledger := c.ledger.without tokens
        tables := c.tables.releaseAll (ps.filterMap (·.target)) } := by
  refine ⟨fun hissued => hissued.of_advances (c.ledger.advances_without tokens),
    fun _ others hcounts => (hcounts.of_perm ?_).releaseAll⟩
  refine List.perm_iff_count.mpr fun x => ?_
  have hholds := (RequestLedger.holds_claimed hnodup hps).count_eq x
  simp only [List.count_append] at hholds ⊢
  omega

theorem exchanges_settle {r : Report} (h : c.settle r = .ok c₁) : c.Exchanges c₁ := by
  obtain ⟨s, hs, rfl⟩ := settle_cases h
  obtain ⟨ps, hnodup, hps, hledger, -, hreleased⟩ := RequestLedger.settle_spec hs
  rw [hledger, hreleased]
  have hclaimed := exchanges_claimed hnodup hps
  exact ⟨hclaimed.issued, hclaimed.counts⟩

/-- When all requests are forgotten, everything that was held for them is given back. -/
theorem exchanges_clear (c : Connection σ ρ) :
    c.Exchanges
      { c with
        ledger := c.ledger.clear
        tables := c.tables.releaseAll c.ledger.holds } := by
  refine ⟨fun hissued => hissued.of_advances c.ledger.advances_clear,
    fun _ others hcounts => (hcounts.of_perm ?_).releaseAll⟩
  have hnone : c.ledger.clear.holds = [] := rfl
  refine List.perm_iff_count.mpr fun x => ?_
  simp only [hnone, List.count_append, List.count_nil]
  omega

/-! ## References under names -/

theorem exchanges_keep (name : String) {r : Reference} (hvalid : c.tables.isValid r = true) :
    c.Exchanges
      { c with
        tables := (c.tables.keep c.kept name r).1
        kept := (c.tables.keep c.kept name r).2 } := by
  refine ⟨id, fun _ others hcounts => ((hcounts.retain hvalid).of_perm ?_).releaseAll⟩
  refine List.perm_iff_count.mpr fun x => ?_
  have hvalues := (c.kept.values_insert_perm name r).count_eq x
  simp only [HandleTables.keep, List.count_append, List.count_cons] at hvalues ⊢
  omega

theorem exchanges_drop (c : Connection σ ρ) (name : String) :
    c.Exchanges
      { c with
        tables := (c.tables.drop c.kept name).1
        kept := (c.tables.drop c.kept name).2 } := by
  refine ⟨id, fun _ others hcounts => (hcounts.of_perm ?_).releaseAll⟩
  refine List.perm_iff_count.mpr fun x => ?_
  have hvalues := (c.kept.values_erase_perm name).count_eq x
  simp only [HandleTables.drop, List.count_append] at hvalues ⊢
  omega

end Connection

end Telepathy

import Telepathy.Proofs.Connection.Replies
import Telepathy.Proofs.Request.Owners

set_option autoImplicit false

/-!
# How new channels are announced

A connection carries out a report on new channels as its ledger settles it: every request that the
report names gets what is due to it, and nothing else about the connection changes.
-/

namespace Telepathy

namespace Connection

variable {σ ρ : Type}

/-- A connection settles a report as its ledger does. -/
theorem settle_of_ledger {c : Connection σ ρ} {r : Report} {s : Settlement}
    (h : c.ledger.settle c.names.path r = .ok s) :
    c.settle r = .ok ({ c with
      ledger := s.ledger
      tables := c.tables.releaseAll s.released }.record s.events) := by
  rw [settle, h]

/-- Announcing new channels answers every waiting request: an empty batch does nothing; one whose
tokens are different and in flight is signalled channel by channel, and then every request gets what
is due to it, in the order of the batch, and leaves the ledger, as no other does; and any other
batch crashes before anything is sent. -/
theorem settle_newChannels (c : Connection σ ρ)
    (batch : List (ChannelDetails × List RequestToken)) :
    (batch = [] → c.settle (.newChannels batch) = .ok c) ∧
    (batch ≠ [] → (batch.flatMap (·.2)).Nodup →
      (∀ token ∈ batch.flatMap (·.2), c.ledger.isPending token = true) →
        ∃ c', c.settle (.newChannels batch) = .ok c' ∧
          (∀ entry ∈ batch, entry.2.map c.ledger.inFlight.get? =
            (c.ledger.waiting entry.2).map some) ∧
          c'.log = c.log ++
            (.signal c.names.path (.newChannels (batch.map (·.1))) ::
              batch.map (fun entry =>
                .signal c.names.path (.newChannel entry.1.path entry.1.channelType entry.1.entity
                  entry.1.target? (∃ p ∈ c.ledger.waiting entry.2,
                    p.method = .create ∨ p.method = .legacy true))) ++
              batch.flatMap fun entry => (c.ledger.waiting entry.2).mapIdx fun i p =>
                .answered p.call (.returned (SatisfiedRequests.dueReply entry.1
                  (c.ledger.waiting entry.2) i p.method))) ∧
          (∀ token, c'.ledger.inFlight.get? token =
            if token ∈ batch.flatMap (·.2) then none else c.ledger.inFlight.get? token) ∧
          c' = { c with
            ledger := { c.ledger with inFlight := c'.ledger.inFlight }
            tables := c.tables.releaseAll
              ((c.ledger.waiting (batch.flatMap (·.2))).filterMap (·.target))
            log := c'.log }) ∧
    (¬((batch.flatMap (·.2)).Nodup ∧
        ∀ token ∈ batch.flatMap (·.2), c.ledger.isPending token = true) →
      ∃ token ∈ batch.flatMap (·.2),
        (c.ledger.isPending token = false ∨ 2 ≤ (batch.flatMap (·.2)).count token) ∧
          c.settle (.newChannels batch) = .error ⟨.notInFlight token, none, c.log⟩) := by
  refine ⟨?_, fun hne hnodup hpending => ?_, fun h => ?_⟩
  · rintro rfl
    simp only [settle, RequestLedger.settle, HandleTables.releaseAll, List.foldl_nil, record,
      List.append_nil]
  · have hevents := RequestLedger.announce_eq c.names.path
      (batch.map fun entry => (entry.1, c.ledger.waiting entry.2))
    simp only [List.map_map, List.flatMap_map, Function.comp_def] at hevents
    have hsettle := settle_of_ledger
      (RequestLedger.settle_newChannels_eq_ok c.names.path hne hnodup hpending)
    exact ⟨_, hsettle, fun entry hentry => RequestLedger.waiting_map_some fun token ht =>
      hpending token (List.mem_flatMap.mpr ⟨entry, hentry, ht⟩), congrArg (c.log ++ ·) hevents,
      fun token => RequestLedger.get?_without _ _ _, rfl⟩
  · obtain ⟨token, hmem, hwhy, hclaim⟩ := RequestLedger.claimBatch_eq_error h
    refine ⟨token, hmem, hwhy, ?_⟩
    cases batch with
    | nil => cases hmem
    | cons entry rest =>
      simp only [settle, RequestLedger.settle, hclaim]
      rfl

/-- A client asks once for a new channel, three times for any, and once as old clients do. -/
def fiveRequests : List (Operation Unit Unit) :=
  let channel := .ofList [(Property.channelType, .text "text")]
  [.setSelf (.id "user"), .changeStatus .connected .requested, .request ⟨1⟩ .create channel,
    .request ⟨2⟩ .ensure channel, .request ⟨3⟩ .ensure channel,
    .request ⟨4⟩ (.legacy true) channel, .request ⟨5⟩ .ensure channel]

/-- A channel without properties. -/
def bareChannel (path : String) : ChannelDetails := ⟨⟨path⟩, .empty⟩

/-- Two channels are announced for five requests: the first is owned by who asked for it first, the
second by who insisted on it. The same token twice is a fault. -/
theorem fiveRequests_owned :
    ∃ c c', holding.run fiveRequests = .ok c ∧
      c.settle (.newChannels []) = .ok c ∧
      c.settle (.newChannels [(bareChannel "/a", [⟨2⟩, ⟨3⟩]),
        (bareChannel "/b", [⟨5⟩, ⟨4⟩, ⟨1⟩])]) = .ok c' ∧
      c'.log = c.log ++
        [.signal c.names.path (.newChannels [bareChannel "/a", bareChannel "/b"]),
          .signal c.names.path (.newChannel ⟨"/a"⟩ "" .none none false),
          .signal c.names.path (.newChannel ⟨"/b"⟩ "" .none none true),
          .answered ⟨2⟩ (.returned (.ensured true (bareChannel "/a"))),
          .answered ⟨3⟩ (.returned (.ensured false (bareChannel "/a"))),
          .answered ⟨5⟩ (.returned (.ensured false (bareChannel "/b"))),
          .answered ⟨4⟩ (.returned (.requested ⟨"/b"⟩)),
          .answered ⟨1⟩ (.returned (.created (bareChannel "/b")))] ∧
      ∃ token ∈ [⟨1⟩, ⟨2⟩, ⟨1⟩],
        c.settle (.newChannels [(bareChannel "/a", [⟨1⟩]), (bareChannel "/b", [⟨2⟩, ⟨1⟩])]) =
          .error ⟨.notInFlight token, none, c.log⟩ := by
  have heval : ((holding.run fiveRequests).toOption.any fun c =>
      (∀ token ∈ [⟨2⟩, ⟨3⟩, ⟨5⟩, ⟨4⟩, ⟨1⟩], c.ledger.isPending token = true) ∧
        c.ledger.waiting [⟨2⟩, ⟨3⟩] = [⟨⟨2⟩, .ensure, none⟩, ⟨⟨3⟩, .ensure, none⟩] ∧
        c.ledger.waiting [⟨5⟩, ⟨4⟩, ⟨1⟩] =
          [⟨⟨5⟩, .ensure, none⟩, ⟨⟨4⟩, .legacy true, none⟩, ⟨⟨1⟩, .create, none⟩]) = true := by
    decide +kernel
  obtain ⟨c, hrun, hc⟩ := Except.eq_ok_of_any heval
  obtain ⟨hpending, hfirst, hsecond⟩ := decide_eq_true_iff.mp hc
  obtain ⟨c', hsettle, -, hlog, -⟩ :=
    (settle_newChannels c [(bareChannel "/a", [⟨2⟩, ⟨3⟩]), (bareChannel "/b", [⟨5⟩, ⟨4⟩, ⟨1⟩])]).2.1
      (by decide) (by decide) hpending
  obtain ⟨token, hmem, -, hfault⟩ :=
    (settle_newChannels c [(bareChannel "/a", [⟨1⟩]), (bareChannel "/b", [⟨2⟩, ⟨1⟩])]).2.2
      fun h => absurd h.1 (by decide)
  refine ⟨c, c', hrun, (settle_newChannels c []).1 rfl, hsettle, ?_, token, hmem, hfault⟩
  rw [hlog]
  simp only [List.map_cons, List.map_nil, List.flatMap_cons, List.flatMap_nil, hfirst, hsecond]
  rfl

end Connection

end Telepathy

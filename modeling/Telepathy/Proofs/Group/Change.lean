import Telepathy.Group.Membership

set_option autoImplicit false

/-!
# What a batch does to a group

A batch names each handle at most once, so what becomes of a handle can be read off the batch: if
it names the handle, the handle goes to its place, and if not, it stays where it is. The signal
lists exactly the handles that were somewhere else before. These two facts are all that later proofs
need to know about carrying out a batch.
-/

namespace Telepathy

namespace Standing

theorem place_ofPlace? (p : Place) (provenance : Provenance) :
    (ofPlace? p provenance).elim .outside place = p := by
  cases p <;> rfl

end Standing

namespace Membership

variable {m : Membership}

theorem mem_inPlace {p : Place} {h : Handle} (hp : p ≠ .outside) :
    h ∈ m.inPlace p ↔ m.placeOf h = p := by
  rw [inPlace, SortedMap.mem_keysWhere, placeOf]
  cases m.standings.get? h with
  | none => simp [eq_comm, hp]
  | some s => simp

/-! ## One handle -/

theorem settle_get? (m : Membership) (provenance : Provenance) (h h' : Handle) (p : Place) :
    (m.settle provenance h p).standings.get? h' =
      if h' = h then Standing.ofPlace? p provenance else m.standings.get? h' := by
  unfold settle
  cases hs : Standing.ofPlace? p provenance with
  | some s => rw [SortedMap.get?_insert]
  | none =>
    by_cases hc : m.contains h = true
    · simp only [if_pos hc]
      rw [SortedMap.get?_erase]
    · simp only [if_neg hc]
      have hnone : m.standings.get? h = none := by
        simpa [contains, SortedMap.contains] using hc
      by_cases heq : h' = h
      · rw [if_pos heq, heq, hnone]
      · rw [if_neg heq]

theorem settle_flags (m : Membership) (provenance : Provenance) (h : Handle) (p : Place) :
    (m.settle provenance h p).flags = m.flags := by
  unfold settle
  cases Standing.ofPlace? p provenance with
  | some s => rfl
  | none => by_cases hc : m.contains h = true <;> simp [hc]

theorem settle_self (m : Membership) (provenance : Provenance) (h : Handle) (p : Place) :
    (m.settle provenance h p).self = m.self := by
  unfold settle
  cases Standing.ofPlace? p provenance with
  | some s => rfl
  | none => by_cases hc : m.contains h = true <;> simp [hc]

/-! ## A batch -/

/-- After some handles were sent to their places, each of them has the standing of its place, the
others have theirs, and those moved that were elsewhere. -/
theorem foldl_send (provenance : Provenance) {l : List (Handle × Place)}
    (hl : l.Pairwise fun a b => compare a.1 b.1 = .lt) (u : Progress) :
    let u' := l.foldl (fun u e => u.send provenance e.1 e.2) u
    (∀ h, u'.membership.standings.get? h =
      (SortedMap.lookup h l).elim (u.membership.standings.get? h)
        (Standing.ofPlace? · provenance)) ∧
    u'.moves = u.moves ++ l.filter (fun e => u.membership.placeOf e.1 ≠ e.2) ∧
    u'.membership.flags = u.membership.flags := by
  induction l generalizing u with
  | nil => exact ⟨fun _ => rfl, (List.append_nil _).symm, rfl⟩
  | cons e l ih =>
    obtain ⟨h₀, p₀⟩ := e
    obtain ⟨hfirst, hrest⟩ := List.pairwise_cons.mp hl
    obtain ⟨hget, hmoves, hflags⟩ := ih hrest (u.send provenance h₀ p₀)
    have hsent : ∀ h, (u.send provenance h₀ p₀).membership.standings.get? h =
        if h = h₀ then Standing.ofPlace? p₀ provenance else u.membership.standings.get? h :=
      fun h => settle_get? _ _ _ _ _
    have hne : ∀ e ∈ l, e.1 ≠ h₀ := by
      intro e he heq
      have := hfirst e he
      rw [heq, Std.ReflOrd.compare_self] at this
      exact absurd this (by decide)
    refine ⟨fun h => ?_, ?_, hflags.trans (settle_flags _ _ _ _)⟩
    · rw [List.foldl_cons, hget, hsent, SortedMap.lookup]
      by_cases heq : h = h₀
      · subst heq
        have habsent : SortedMap.lookup h l = none := by
          cases hp : SortedMap.lookup h l with
          | none => rfl
          | some p =>
            have := (SortedMap.lookup_eq_some_iff hrest).mp hp
            exact absurd rfl (hne _ this)
        simp [habsent]
      · simp [heq]
    · have hplaces : l.filter (fun e => (u.send provenance h₀ p₀).membership.placeOf e.1 ≠ e.2) =
          l.filter (fun e => u.membership.placeOf e.1 ≠ e.2) := by
        refine List.filter_congr fun e he => ?_
        rw [placeOf, hsent, if_neg (hne e he), placeOf]
      rw [List.foldl_cons, hmoves, hplaces, List.filter_cons, Progress.send]
      by_cases hstays : u.membership.placeOf h₀ = p₀
      · simp [hstays]
      · simp [hstays]

variable (m : Membership) (c : MembershipChange)

/-- The handles that a batch moves, ascending, with their places. -/
def moves : List (Handle × Place) :=
  c.places.toList.filter fun e => m.placeOf e.1 ≠ e.2

/-- A batch gives the handles it names the standing of their places, and leaves the others alone. -/
theorem change_get? (h : Handle) :
    (m.change c).membership.standings.get? h =
      (c.places.get? h).elim (m.standings.get? h) (Standing.ofPlace? · c.provenance) :=
  (foldl_send c.provenance c.places.ascending ⟨m, [], [], []⟩).1 h

theorem change_flags : (m.change c).membership.flags = m.flags :=
  (foldl_send c.provenance c.places.ascending ⟨m, [], [], []⟩).2.2

theorem change_self : (m.change c).membership.self = m.self := by
  have hfold : ∀ (l : List (Handle × Place)) (u : Progress),
      (l.foldl (fun u e => u.send c.provenance e.1 e.2) u).membership.self = u.membership.self := by
    intro l
    induction l with
    | nil => exact fun _ => rfl
    | cons e l ih => exact fun u => (ih _).trans (settle_self ..)
  exact hfold c.places.toList ⟨m, [], [], []⟩

/-- The signal for a batch tells of the handles it moves. -/
theorem change_signal :
    (m.change c).signal = announcement c.provenance (m.moves c) := by
  have := (foldl_send c.provenance c.places.ascending ⟨m, [], [], []⟩).2.1
  rw [List.nil_append] at this
  rw [change, this, moves]

theorem placeOf_change (h : Handle) :
    (m.change c).membership.placeOf h = (c.places.get? h).getD (m.placeOf h) := by
  rw [placeOf, change_get?]
  cases c.places.get? h with
  | none => rfl
  | some p => exact Standing.place_ofPlace? p c.provenance

variable {m c}

theorem mem_moves {h : Handle} {p : Place} :
    (h, p) ∈ m.moves c ↔ c.places.get? h = some p ∧ m.placeOf h ≠ p := by
  rw [moves, List.mem_filter, ← SortedMap.get?_eq_some_iff, decide_eq_true_iff]

theorem mem_movedTo {l : List (Handle × Place)} {h : Handle} {p : Place} :
    h ∈ movedTo l p ↔ (h, p) ∈ l := by
  simp [movedTo]

end Membership

end Telepathy

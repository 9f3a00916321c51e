import Telepathy.Connection.Operation

set_option autoImplicit false

/-!
# What a connection knows of people

A connection knows the handle of its user and the interests of clients, and has the bus watch the
clients that declared some. Two things are in order throughout: nobody is watched without having
declared an interest, and once the connection is gone nothing is known of anybody. `Personal` says
this of a connection; interests change only through `applyInterest`, which keeps it.
-/

namespace Telepathy

namespace InterestTable

variable {t : InterestTable} {client client' : ClientName}

/-! ## Declarations -/

/-- What an update of one client's declarations does to the list of those who declared something,
and that its word on watching the client is in line with it. -/
structure Tracks (t : InterestTable) (client : ClientName)
    (change : InterestTable × InterestUpdate) : Prop where
  others : ∀ client', client' ≠ client → t.declared.contains client' = true →
    change.1.declared.contains client' = true
  own : match change.2.watch with
    | .keep => t.declared.contains client = true → change.1.declared.contains client = true
    | .start => change.1.declared.contains client = true
    | .stop => True

/-- Who has declared something goes on to do so when somebody declares more. -/
theorem contains_declare (s : InterestTable × List InterestTransition) (token : String)
    (h : s.1.declared.contains client' = true) :
    (declare client s token).1.declared.contains client' = true := by
  have hinsert : ∀ row, (s.1.declared.insert client row).contains client' = true := by
    intro row
    rw [SortedMap.contains, SortedMap.get?_insert]
    split
    · rfl
    · exact h
  unfold declare
  dsimp only
  split
  · exact hinsert _
  · exact hinsert _

theorem contains_declareAll (tokens : List String) (s : InterestTable × List InterestTransition)
    (h : s.1.declared.contains client' = true) :
    (tokens.foldl (declare client) s).1.declared.contains client' = true := by
  induction tokens generalizing s with
  | nil => exact h
  | cons token tokens ih => exact ih _ (contains_declare s token h)

theorem tracks_add (t : InterestTable) (client : ClientName) (tokens : List String) :
    t.Tracks client (t.add client tokens) where
  others client' _ h := contains_declareAll _ (t, []) h
  own := by
    by_cases hfresh : (!t.declared.contains client &&
        (t.add client tokens).1.declared.contains client) = true
    · have hwatch : (t.add client tokens).2.watch = .start := if_pos hfresh
      rw [hwatch]
      exact ((Bool.and_eq_true _ _).mp hfresh).2
    · have hwatch : (t.add client tokens).2.watch = .keep := if_neg hfresh
      rw [hwatch]
      exact contains_declareAll _ (t, [])

theorem declared_releaseTokens (t : InterestTable) (tokens : List String) :
    (t.releaseTokens tokens).1.declared = t.declared := by
  have hstep : ∀ (tokens : List String) (s : InterestTable × List InterestTransition),
      (tokens.foldl releaseToken s).1.declared = s.1.declared := by
    intro tokens
    induction tokens with
    | nil => exact fun _ => rfl
    | cons token tokens ih =>
      intro s
      refine (ih _).trans ?_
      unfold releaseToken
      dsimp only
      split
      · rfl
      · split <;> rfl
  exact hstep tokens (t, [])

/-- A client that withdraws has no say in what others declared. -/
theorem contains_erase_ne (h : client' ≠ client) (hin : t.declared.contains client' = true) :
    (t.declared.erase client).contains client' = true := by
  rw [SortedMap.contains, SortedMap.get?_erase, if_neg h]
  exact hin

theorem tracks_remove (t : InterestTable) (client : ClientName) (tokens : List String) :
    t.Tracks client (t.remove client tokens) := by
  unfold remove
  split
  · exact ⟨fun _ _ h => h, id⟩
  · dsimp only
    split
    · refine ⟨fun client' hne h => ?_, trivial⟩
      rw [declared_releaseTokens]
      exact contains_erase_ne hne h
    · constructor
      · intro client' hne h
        rw [declared_releaseTokens, SortedMap.contains, SortedMap.get?_insert, if_neg hne]
        exact h
      · intro _
        rw [declared_releaseTokens, SortedMap.contains, SortedMap.get?_insert_self]
        rfl

theorem tracks_vanish (t : InterestTable) (client : ClientName) :
    t.Tracks client (t.vanish client) := by
  unfold vanish
  split
  · exact ⟨fun _ _ h => h, id⟩
  · refine ⟨fun client' hne h => ?_, trivial⟩
    dsimp only
    rw [declared_releaseTokens]
    exact contains_erase_ne hne h

end InterestTable

/-! ## The bus -/

theorem Bus.watched_claimName {b b' : Bus} {name : BusName} (h : b.claimName name = .ok b') :
    b'.watched = b.watched := by
  unfold Bus.claimName at h
  split at h <;> cases h
  rfl

theorem Bus.watched_exportObject {b b' : Bus} {path : ObjectPath} {interfaces : List String}
    (h : b.exportObject path interfaces = .ok b') : b'.watched = b.watched := by
  unfold Bus.exportObject at h
  split at h <;> cases h
  rfl

/-- Nobody is watched once all who are have been taken off. -/
theorem Bus.mem_watched_unwatchAll {clients : List ClientName} {b : Bus} {client : ClientName} :
    client ∈ (clients.foldl Bus.unwatch b).watched ↔ client ∈ b.watched ∧ client ∉ clients := by
  induction clients generalizing b with
  | nil => simp
  | cons first clients ih =>
    rw [List.foldl_cons, ih, Bus.unwatch, SortedSet.mem_erase, List.mem_cons, not_or, and_assoc]

namespace Connection

variable {σ ρ : Type} {c c₁ : Connection σ ρ}

/-! ## Connections -/

/-- Only clients that declared an interest are watched. -/
def Watching (c : Connection σ ρ) : Prop :=
  ∀ client ∈ c.bus.watched, c.interests.declared.contains client = true

/-- Nothing is known of the user or of any client's interests. -/
def Parted (c : Connection σ ρ) : Prop :=
  c.self = none ∧ c.interests.holders = .empty ∧ c.interests.declared = .empty

/-- What is known of people is in order. -/
def Personal (c : Connection σ ρ) : Prop :=
  c.Watching ∧ (c.status = .disconnected → c.Parted)

/-- What has nothing to do with people leaves in order what is known of them. -/
theorem Personal.of_eq (hc : c.Personal) (hself : c₁.self = c.self)
    (hinterests : c₁.interests = c.interests) (hwatched : c₁.bus.watched = c.bus.watched)
    (hstatus : c₁.status = c.status) : c₁.Personal := by
  rw [Personal, Watching, Parted, hself, hinterests, hwatched, hstatus]
  exact hc

theorem interests_applyInterest (c : Connection σ ρ) (client : ClientName)
    (change : InterestTable × InterestUpdate) :
    (c.applyInterest client change).interests = change.1 := by
  unfold applyInterest watchAs
  cases change.2.watch <;> rfl

theorem watching_applyInterest (hc : c.Watching) {client : ClientName}
    {change : InterestTable × InterestUpdate} (h : c.interests.Tracks client change) :
    (c.applyInterest client change).Watching := by
  have hkept : ∀ client' ∈ c.bus.watched, client' ≠ client →
      change.1.declared.contains client' = true :=
    fun client' hin hne => h.others client' hne (hc client' hin)
  have hown := h.own
  intro client' hin
  rw [interests_applyInterest]
  unfold applyInterest watchAs at hin
  by_cases heq : client' = client
  · subst heq
    cases hwatch : change.2.watch with
    | keep =>
      rw [hwatch] at hin hown
      exact hown (hc client' hin)
    | start =>
      rw [hwatch] at hown
      exact hown
    | stop =>
      rw [hwatch] at hin
      exact absurd rfl (SortedSet.mem_erase.mp hin).2
  · refine hkept client' ?_ heq
    cases hwatch : change.2.watch with
    | keep =>
      rw [hwatch] at hin
      exact hin
    | start =>
      rw [hwatch] at hin
      exact (SortedSet.mem_insert.mp hin).resolve_left heq
    | stop =>
      rw [hwatch] at hin
      exact (SortedSet.mem_erase.mp hin).1

/-- An update of interests; once the connection is gone there is nothing to update. -/
theorem Personal.applyInterest (hc : c.Personal) {client : ClientName}
    {change : InterestTable × InterestUpdate} (h : c.interests.Tracks client change)
    (hgone : c.status = .disconnected → c.Parted → change = (c.interests, ⟨[], .keep⟩)) :
    (c.applyInterest client change).Personal := by
  refine ⟨watching_applyInterest hc.1 h, fun hs => ?_⟩
  have hstatus : (c.applyInterest client change).status = c.status := by
    unfold Connection.applyInterest watchAs
    cases change.2.watch <;> rfl
  have hparted := hc.2 (hstatus ▸ hs)
  rw [hgone (hstatus ▸ hs) hparted]
  exact hparted

theorem Personal.removeInterest (hc : c.Personal) (client : ClientName) (tokens : List String) :
    (c.removeInterest client tokens).Personal := by
  refine hc.applyInterest (InterestTable.tracks_remove _ _ _) fun _ hparted => ?_
  unfold InterestTable.remove
  rw [hparted.2.2]
  rfl

theorem Personal.clientVanished (hc : c.Personal) (client : ClientName) :
    (c.clientVanished client).Personal := by
  refine hc.applyInterest (InterestTable.tracks_vanish _ _) fun _ hparted => ?_
  unfold InterestTable.vanish
  rw [hparted.2.2]
  rfl

end Connection

end Telepathy

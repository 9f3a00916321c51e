import Telepathy.Handle.Tables
import Telepathy.Proofs.Fallible

set_option autoImplicit false

/-!
# Tables that forget nothing

Whether a table gives a handle to an identifier depends on its normaliser, on how it treats what it
has not seen, and on what it has seen. As long as no handle is reclaimed a table only sees more, so
an identifier that has a handle, or can get one, keeps it whatever else is issued and counted.
-/

namespace Telepathy

namespace HandleTable

/-- The table gives a handle to `id` by itself. -/
def Gives (t : HandleTable) (id : String) : Prop := ∃ r, t.ensure id = .ok r

/-- What issuing handles and counting references do to a table. -/
structure Grows (t t' : HandleTable) : Prop where
  allocation : t'.allocation = t.allocation
  normalise : t'.normalise = t.normalise
  index : ∀ id, t.index.contains id = true → t'.index.contains id = true

variable {t t' t₁ : HandleTable} {id : String}

theorem ensure_eq_ok {r : Handle × HandleTable} :
    t.ensure id = .ok r ↔ ∃ canonical, t.normalise id = .ok canonical ∧
      ((∃ h, t.index.get? canonical = some h ∧ r = (h, t)) ∨
        t.index.get? canonical = none ∧ t.allocation = .onDemand ∧
          r = (t.next, t.allocate canonical)) := by
  unfold ensure normalised
  rw [Except.bind_eq_ok]
  simp only [Except.mapError_eq_ok]
  refine exists_congr fun canonical => and_congr_right fun _ => ?_
  cases t.index.get? canonical with
  | some h => simp [pure, Except.pure, eq_comm]
  | none => cases t.allocation <;> simp [pure, Except.pure, eq_comm]

theorem gives_iff : t.Gives id ↔ ∃ canonical, t.normalise id = .ok canonical ∧
    (t.index.contains canonical = true ∨ t.allocation = .onDemand) := by
  simp only [Gives, ensure_eq_ok, SortedMap.contains]
  constructor
  · rintro ⟨r, canonical, hcanonical, ⟨h, hget, -⟩ | ⟨-, hdemand, -⟩⟩
    · exact ⟨canonical, hcanonical, .inl (by rw [hget]; rfl)⟩
    · exact ⟨canonical, hcanonical, .inr hdemand⟩
  · rintro ⟨canonical, hcanonical, hseen⟩
    cases hget : t.index.get? canonical with
    | some h => exact ⟨_, canonical, hcanonical, .inl ⟨h, hget, rfl⟩⟩
    | none =>
      rw [hget] at hseen
      rcases hseen with hseen | hdemand
      · cases hseen
      · exact ⟨_, canonical, hcanonical, .inr ⟨hget, hdemand, rfl⟩⟩

namespace Grows

theorem refl (t : HandleTable) : t.Grows t := ⟨rfl, rfl, fun _ h => h⟩

theorem trans (h : t.Grows t') (h' : t'.Grows t₁) : t.Grows t₁ :=
  ⟨h'.allocation.trans h.allocation, h'.normalise.trans h.normalise,
    fun id hid => h'.index id (h.index id hid)⟩

theorem gives (h : t.Grows t') (hid : t.Gives id) : t'.Gives id := by
  obtain ⟨canonical, hcanonical, hseen⟩ := gives_iff.mp hid
  refine gives_iff.mpr ⟨canonical, by rw [h.normalise]; exact hcanonical, ?_⟩
  rcases hseen with hseen | hdemand
  · exact .inl (h.index canonical hseen)
  · exact .inr (h.allocation.trans hdemand)

end Grows

theorem grows_ensure {r : Handle × HandleTable} (h : t.ensure id = .ok r) : t.Grows r.2 := by
  obtain ⟨canonical, -, ⟨known, -, rfl⟩ | ⟨-, -, rfl⟩⟩ := ensure_eq_ok.mp h
  · exact .refl t
  · refine ⟨rfl, rfl, fun id' hid' => ?_⟩
    simp only [SortedMap.contains, allocate, SortedMap.get?_insert]
    split
    · rfl
    · exact hid'

/-- Counting references is nothing to the identifiers. -/
theorem grows_exchange (t : HandleTable) (retained released : List Handle) :
    t.Grows (t.exchange retained released) := by
  have hretain : ∀ (l : List Handle) (t : HandleTable), t.Grows (l.foldl retain t) := by
    intro l
    induction l with
    | nil => exact .refl
    | cons h l ih =>
      intro t
      exact (⟨rfl, rfl, fun _ hid => hid⟩ : t.Grows (t.retain h)).trans (ih _)
  have hrelease : ∀ (l : List Handle) (t : HandleTable), t.Grows (l.foldl release t) := by
    intro l
    induction l with
    | nil => exact .refl
    | cons h l ih =>
      intro t
      exact (⟨rfl, rfl, fun _ hid => hid⟩ : t.Grows (t.release h)).trans (ih _)
  exact (hretain retained t).trans (hrelease released _)

end HandleTable

namespace HandleTables

/-- The table of an entity type gives a handle to `id` by itself. -/
def Gives (ts : HandleTables) (e : EntityType) (id : String) : Prop := ∃ r, ts.ensure e id = .ok r

/-- Every table is still there and forgot nothing. -/
def Grows (ts ts' : HandleTables) : Prop :=
  ∀ e t, ts.get? e = some t → ∃ t', ts'.get? e = some t' ∧ t.Grows t'

variable {ts ts' ts₁ : HandleTables} {e : EntityType} {id : String}

theorem ensure_eq_ok {r : Handle × HandleTables} :
    ts.ensure e id = .ok r ↔
      ∃ t r', ts.get? e = some t ∧ t.ensure id = .ok r' ∧ r = (r'.1, ts.set e r'.2) := by
  unfold ensure get
  rw [Except.bind_eq_ok]
  cases ts.get? e with
  | none => simp
  | some t =>
    constructor
    · rintro ⟨t', ht, h⟩
      cases ht
      obtain ⟨r', hr', h⟩ := Except.bind_eq_ok.mp h
      cases h
      exact ⟨t, r', rfl, hr', rfl⟩
    · rintro ⟨t', r', ht, hr', rfl⟩
      cases ht
      exact ⟨t, rfl, Except.bind_eq_ok.mpr ⟨r', hr', rfl⟩⟩

instance : Decidable (ts.Gives e id) :=
  match h : ts.ensure e id with
  | .ok r => isTrue ⟨r, h⟩
  | .error _ => isFalse fun ⟨r, hr⟩ => by
    rw [h] at hr
    cases hr

theorem gives_iff : ts.Gives e id ↔ ∃ t, ts.get? e = some t ∧ t.Gives id := by
  constructor
  · rintro ⟨r, hr⟩
    obtain ⟨t, r', ht, hr', -⟩ := ensure_eq_ok.mp hr
    exact ⟨t, ht, r', hr'⟩
  · rintro ⟨t, ht, r, hr⟩
    exact ⟨_, ensure_eq_ok.mpr ⟨t, r, ht, hr, rfl⟩⟩

theorem get?_modify (ts : HandleTables) (e e' : EntityType) (f : HandleTable → HandleTable) :
    (ts.modify e f).get? e' = if e' = e then (ts.get? e').map f else ts.get? e' := by
  cases e <;> cases e' <;> rfl

namespace Grows

theorem refl (ts : HandleTables) : ts.Grows ts := fun _ t ht => ⟨t, ht, .refl t⟩

theorem trans (h : ts.Grows ts') (h' : ts'.Grows ts₁) : ts.Grows ts₁ := by
  intro e t ht
  obtain ⟨t', ht', hgrows⟩ := h e t ht
  obtain ⟨t₁, ht₁, hgrows'⟩ := h' e t' ht'
  exact ⟨t₁, ht₁, hgrows.trans hgrows'⟩

theorem gives (h : ts.Grows ts') (hid : ts.Gives e id) : ts'.Gives e id := by
  obtain ⟨t, ht, hgives⟩ := gives_iff.mp hid
  obtain ⟨t', ht', hgrows⟩ := h e t ht
  exact gives_iff.mpr ⟨t', ht', hgrows.gives hgives⟩

end Grows

theorem grows_modify {f : HandleTable → HandleTable}
    (hf : ∀ t, ts.get? e = some t → t.Grows (f t)) : ts.Grows (ts.modify e f) := by
  intro e' t ht
  rw [get?_modify]
  by_cases he : e' = e
  · subst he
    exact ⟨f t, by rw [if_pos rfl, ht]; rfl, hf t ht⟩
  · exact ⟨t, by rw [if_neg he]; exact ht, .refl t⟩

theorem grows_ensure {r : Handle × HandleTables} (h : ts.ensure e id = .ok r) : ts.Grows r.2 := by
  obtain ⟨t, r', ht, hr', rfl⟩ := ensure_eq_ok.mp h
  refine grows_modify fun t' ht' => ?_
  rw [ht, Option.some.injEq] at ht'
  exact ht' ▸ HandleTable.grows_ensure hr'

theorem grows_retain (ts : HandleTables) (r : Reference) : ts.Grows (ts.retain r) :=
  grows_modify fun _ _ => ⟨rfl, rfl, fun _ h => h⟩

theorem grows_release (ts : HandleTables) (r : Reference) : ts.Grows (ts.release r) :=
  grows_modify fun _ _ => ⟨rfl, rfl, fun _ h => h⟩

theorem grows_exchangeContacts (ts : HandleTables) (retained released : List Handle) :
    ts.Grows (ts.exchangeContacts retained released) :=
  grows_modify (e := .contact) fun t _ => t.grows_exchange retained released

/-- Issuing a handle of another type leaves the contacts alone. -/
theorem contact_ensure {r : Handle × HandleTables} (h : ts.ensure e id = .ok r)
    (he : e ≠ .contact) : r.2.contact = ts.contact := by
  obtain ⟨t, r', -, -, rfl⟩ := ensure_eq_ok.mp h
  cases e with
  | contact => exact absurd rfl he
  | _ => rfl

end HandleTables

end Telepathy

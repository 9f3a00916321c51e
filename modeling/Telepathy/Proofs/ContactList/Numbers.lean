import Telepathy.ContactList.Legacy

set_option autoImplicit false

/-!
# Contacts by number

Old clients give contacts by number. If every number is that of a handle in use, what they give is
the set of these handles, in whatever order the numbers come and however often each of them comes.
If a single number is none, they are refused.
-/

namespace Telepathy

/-- The handles with given numbers; zero is none. -/
def Handle.numbered (numbers : List Nat) : SortedSet Handle :=
  .ofList (numbers.filterMap Handle.ofNat?)

theorem Handle.mem_numbered {numbers : List Nat} {h : Handle} :
    h ∈ numbered numbers ↔ h.number ∈ numbers := by
  simp [numbered, Handle.ofNat?_eq_some_iff]

namespace HandleTable

variable {t : HandleTable} {n : Nat} {numbers : List Nat}

/-- A number is that of a handle in use. -/
def Allots (t : HandleTable) (n : Nat) : Prop := ∃ h : Handle, h.number = n ∧ t.isValid h = true

theorem allots_iff : t.Allots n ↔ (Handle.ofNat? n).any t.isValid = true := by
  simp only [Option.any_eq_true, Handle.ofNat?_eq_some_iff, Allots, eq_comm (a := n)]

instance : Decidable (t.Allots n) := decidable_of_iff _ allots_iff.symm

theorem holdNumber_of_allots (h : t.Allots n) :
    ∃ x, Handle.ofNat? n = some x ∧ t.holdNumber n = .ok x := by
  obtain ⟨x, rfl, hx⟩ := h
  have hfound : Handle.ofNat? x.number = some x := Handle.ofNat?_eq_some_iff.mpr rfl
  refine ⟨x, hfound, ?_⟩
  rw [holdNumber, hfound]
  simp only [hold, if_pos hx]
  rfl

/-- A number that is none is refused as an invalid handle. -/
theorem holdNumber_of_not_allots (h : ¬ t.Allots n) :
    ∃ r, t.holdNumber n = .error r ∧ r.toError.kind = .invalidHandle := by
  unfold holdNumber
  cases hfound : Handle.ofNat? n with
  | none => exact ⟨.zero, rfl, rfl⟩
  | some x =>
    have hx : ¬ t.isValid x = true := fun hx =>
      h ⟨x, (Handle.ofNat?_eq_some_iff.mp hfound).symm, hx⟩
    refine ⟨.handle (.invalidHandle t.entity x.number), ?_, rfl⟩
    simp only [hold, if_neg hx]
    rfl

theorem mapM_holdNumber (h : ∀ n ∈ numbers, t.Allots n) :
    numbers.mapM t.holdNumber = .ok (numbers.filterMap Handle.ofNat?) := by
  induction numbers with
  | nil => rfl
  | cons n numbers ih =>
    obtain ⟨x, hx, hfirst⟩ := holdNumber_of_allots (h n List.mem_cons_self)
    rw [List.mapM_cons, hfirst, ih fun n hn => h n (List.mem_cons_of_mem _ hn),
      List.filterMap_cons_some hx]
    rfl

/-- If all numbers are those of handles in use, these handles are found. -/
theorem holdNumbers_of_allots (h : ∀ n ∈ numbers, t.Allots n) :
    t.holdNumbers numbers = .ok (Handle.numbered numbers) := by
  rw [holdNumbers, mapM_holdNumber h]
  rfl

/-- Otherwise the first number that is none decides. -/
theorem holdNumbers_of_not_allots (h : ¬ ∀ n ∈ numbers, t.Allots n) :
    ∃ r, t.holdNumbers numbers = .error r ∧ r.toError.kind = .invalidHandle := by
  suffices hmap : ∃ r, numbers.mapM t.holdNumber = .error r ∧ r.toError.kind = .invalidHandle by
    obtain ⟨r, hr, hkind⟩ := hmap
    refine ⟨r, ?_, hkind⟩
    rw [holdNumbers, hr]
    rfl
  induction numbers with
  | nil => exact absurd (by simp) h
  | cons n numbers ih =>
    rw [List.mapM_cons]
    by_cases hn : t.Allots n
    · obtain ⟨x, -, hfirst⟩ := holdNumber_of_allots hn
      obtain ⟨r, hr, hkind⟩ := ih fun hall => h (List.forall_mem_cons.mpr ⟨hn, hall⟩)
      exact ⟨r, by rw [hfirst, hr]; rfl, hkind⟩
    · obtain ⟨r, hr, hkind⟩ := holdNumber_of_not_allots hn
      exact ⟨r, by rw [hr]; rfl, hkind⟩

theorem isValid_of_holdNumbers {contacts : SortedSet Handle} {x : Handle}
    (h : t.holdNumbers numbers = .ok contacts) (hx : x ∈ contacts) : t.isValid x = true := by
  by_cases hall : ∀ n ∈ numbers, t.Allots n
  · rw [holdNumbers_of_allots hall] at h
    cases h
    obtain ⟨y, hy, hvalid⟩ := hall _ (Handle.mem_numbered.mp hx)
    exact Handle.ext hy ▸ hvalid
  · obtain ⟨r, hr, -⟩ := holdNumbers_of_not_allots hall
    cases h.symm.trans hr

end HandleTable

end Telepathy

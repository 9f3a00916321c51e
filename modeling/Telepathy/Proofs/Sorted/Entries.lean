import Telepathy.Sorted.Map

set_option autoImplicit false

/-!
# The entries of a map as a bag

What a map holds is accounted for entry by entry: putting a key adds one entry to those of the other
keys, and dropping a key takes one away. Accounts that are sums or lists over the entries change by
just that entry, since the order of the entries does not matter for them.
-/

namespace Telepathy.SortedMap

variable {κ ν : Type} [Ord κ] [Std.TransOrd κ]

theorem nodup_toList (m : SortedMap κ ν) : m.toList.Nodup :=
  m.ascending.imp fun hab he => by
    rw [he, Std.ReflOrd.compare_self] at hab
    exact absurd hab (by decide)

theorem nodup_keys (m : SortedMap κ ν) : m.keys.Nodup :=
  List.Pairwise.map _ (fun _ _ hlt heq => by
    rw [heq, Std.ReflOrd.compare_self] at hlt
    exact absurd hlt (by decide)) m.ascending

variable [DecidableEq κ]

/-- A map with an entry for `k` has that entry and those of the other keys. -/
theorem toList_perm_erase {m : SortedMap κ ν} {k : κ} {v : ν} (h : m.get? k = some v) :
    m.toList.Perm ((k, v) :: (m.erase k).toList) := by
  have habsent : (k, v) ∉ (m.erase k).toList := fun hmem => by
    have := get?_eq_some_iff.mpr hmem
    simp at this
  refine (List.perm_ext_iff_of_nodup m.nodup_toList
    (List.nodup_cons.mpr ⟨habsent, nodup_toList _⟩)).mpr fun e => ?_
  obtain ⟨k', v'⟩ := e
  rw [List.mem_cons, ← get?_eq_some_iff, ← get?_eq_some_iff, get?_erase, Prod.mk.injEq]
  by_cases hk : k' = k
  · subst hk
    simp [h, eq_comm]
  · simp [hk]

theorem erase_of_absent {m : SortedMap κ ν} {k : κ} (h : m.get? k = none) : m.erase k = m := by
  refine ext_get? fun k' => ?_
  rw [get?_erase]
  by_cases hk : k' = k
  · simp [hk, h]
  · simp [hk]

theorem get?_foldl_erase {α : Type} (f : α → κ) (l : List α) (m : SortedMap κ ν) (k : κ) :
    (l.foldl (fun m a => m.erase (f a)) m).get? k = if k ∈ l.map f then none else m.get? k := by
  induction l generalizing m with
  | nil => simp
  | cons a l ih =>
    rw [List.foldl_cons, ih, get?_erase, List.map_cons]
    by_cases hk : k ∈ l.map f <;> by_cases ha : k = f a <;> simp [hk, ha]

theorem mem_values {m : SortedMap κ ν} {v : ν} : v ∈ m.values ↔ ∃ k, m.get? k = some v := by
  simp only [values, List.mem_map, Prod.exists, exists_eq_right, get?_eq_some_iff]

theorem eq_empty_iff {m : SortedMap κ ν} : m = .empty ↔ ∀ k, m.get? k = none := by
  constructor
  · rintro rfl k
    rfl
  · intro h
    exact ext_get? fun k => by simp [h k]

/-- Dropping a key takes its value from the bag of values. -/
theorem values_erase_perm (m : SortedMap κ ν) (k : κ) :
    ((m.erase k).values ++ (m.get? k).toList).Perm m.values := by
  cases hget : m.get? k with
  | none => simp [erase_of_absent hget]
  | some v =>
    have hentry : m.values.Perm (v :: (m.erase k).values) := (toList_perm_erase hget).map Prod.snd
    exact (List.perm_append_singleton v _).trans hentry.symm

/-- What is listed for the entries of a map is listed for the entry of `k`, if there is one, and for
those of the other keys. -/
theorem flatMap_perm_erase {β : Type} (m : SortedMap κ ν) (k : κ) (f : κ × ν → List β) :
    (m.toList.flatMap f).Perm
      ((m.get? k).elim [] (fun v => f (k, v)) ++ (m.erase k).toList.flatMap f) := by
  cases hget : m.get? k with
  | none =>
    rw [erase_of_absent hget]
    exact .refl _
  | some v => exact (toList_perm_erase hget).flatMap_right f

variable [Std.LawfulEqOrd κ]

theorem erase_insert (m : SortedMap κ ν) (k : κ) (v : ν) :
    (m.insert k v).erase k = m.erase k := by
  refine ext_get? fun k' => ?_
  rw [get?_erase, get?_erase, get?_insert]
  by_cases hk : k' = k
  · simp [hk]
  · simp [hk]

/-- Putting `k` leaves its new entry and those of the other keys. -/
theorem toList_insert_perm (m : SortedMap κ ν) (k : κ) (v : ν) :
    (m.insert k v).toList.Perm ((k, v) :: (m.erase k).toList) := by
  have h := toList_perm_erase (get?_insert_self m k v)
  rwa [erase_insert] at h

/-- Putting `k` exchanges its value in the bag of values. -/
theorem values_insert_perm (m : SortedMap κ ν) (k : κ) (v : ν) :
    ((m.insert k v).values ++ (m.get? k).toList).Perm (v :: m.values) :=
  (((toList_insert_perm m k v).map _).append_right _).trans ((m.values_erase_perm k).cons v)

end Telepathy.SortedMap

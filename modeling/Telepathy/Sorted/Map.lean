set_option autoImplicit false

/-!
# Finite maps in key order

A `SortedMap κ ν` is the list of its entries in strictly ascending key order. The order is part of
the type, so a map has exactly one representation: two maps that answer every look-up alike are
equal (`SortedMap.ext_get?`), and listing a map needs no further sorting. Maps here are small (the
handles of one connection, the clients of one bus), so every operation walks the list.

The view of a map is `get?`; each operation has one lemma that says what it does to that view.
-/

namespace Telepathy

/-- A finite map from `κ` to `ν`, stored as its entries in strictly ascending key order. -/
structure SortedMap (κ ν : Type) [Ord κ] where
  /-- The entries, by ascending key. -/
  toList : List (κ × ν)
  /-- Keys ascend strictly, so no key occurs twice. -/
  ascending : toList.Pairwise fun a b => compare a.1 b.1 = .lt
deriving DecidableEq

namespace SortedMap

variable {κ ν μ : Type} [Ord κ]

/-! ## Entry lists -/

/-- The value stored with key `k` in an entry list. -/
def lookup [DecidableEq κ] (k : κ) : List (κ × ν) → Option ν
  | [] => none
  | (k', v) :: rest => if k = k' then some v else lookup k rest

/-- Puts `v` under `k` into an ascending entry list, replacing what was there. -/
def put (k : κ) (v : ν) : List (κ × ν) → List (κ × ν)
  | [] => [(k, v)]
  | (k', v') :: rest =>
    match compare k k' with
    | .lt => (k, v) :: (k', v') :: rest
    | .eq => (k, v) :: rest
    | .gt => (k', v') :: put k v rest

theorem mem_put {k : κ} {v : ν} {l : List (κ × ν)} {e : κ × ν} (h : e ∈ put k v l) :
    e = (k, v) ∨ e ∈ l := by
  induction l with
  | nil => simpa [put] using h
  | cons hd tl ih =>
    obtain ⟨k', v'⟩ := hd
    simp only [put] at h
    split at h
    · simpa using h
    · rcases List.mem_cons.mp h with h | h
      · exact .inl h
      · exact .inr (List.mem_cons_of_mem _ h)
    · rcases List.mem_cons.mp h with h | h
      · exact .inr (h ▸ List.mem_cons_self)
      · rcases ih h with h | h
        · exact .inl h
        · exact .inr (List.mem_cons_of_mem _ h)

theorem put_ascending [Std.TransOrd κ] (k : κ) (v : ν) {l : List (κ × ν)}
    (h : l.Pairwise fun a b => compare a.1 b.1 = .lt) :
    (put k v l).Pairwise fun a b => compare a.1 b.1 = .lt := by
  induction l with
  | nil => simp [put]
  | cons hd tl ih =>
    obtain ⟨k', v'⟩ := hd
    have hhd : ∀ e ∈ tl, compare k' e.1 = .lt := (List.pairwise_cons.mp h).1
    have htl := (List.pairwise_cons.mp h).2
    simp only [put]
    split
    next hlt =>
      refine List.pairwise_cons.mpr ⟨fun e he => ?_, h⟩
      rcases List.mem_cons.mp he with rfl | he
      · exact hlt
      · exact Std.TransCmp.lt_trans hlt (hhd e he)
    next heq =>
      exact List.pairwise_cons.mpr
        ⟨fun e he => Std.TransCmp.lt_of_eq_of_lt heq (hhd e he), htl⟩
    next hgt =>
      refine List.pairwise_cons.mpr ⟨fun e he => ?_, ih htl⟩
      rcases mem_put he with rfl | he
      · exact Std.OrientedCmp.lt_of_gt hgt
      · exact hhd e he

/-- In an ascending entry list a key ahead of all others occurs no second time. -/
theorem ne_of_ascending [Std.ReflOrd κ] {k : κ} {l : List (κ × ν)}
    (h : ∀ e ∈ l, compare k e.1 = .lt) (v : ν) : (k, v) ∉ l := fun hmem => by
  have := h _ hmem
  rw [Std.ReflOrd.compare_self] at this
  exact absurd this (by decide)

/-! ## Maps -/

/-- The map without entries. -/
def empty : SortedMap κ ν := ⟨[], .nil⟩

instance : EmptyCollection (SortedMap κ ν) := ⟨empty⟩

instance : Inhabited (SortedMap κ ν) := ⟨empty⟩

/-- Stores `v` under `k`, replacing an earlier value. -/
def insert [Std.TransOrd κ] (m : SortedMap κ ν) (k : κ) (v : ν) : SortedMap κ ν :=
  ⟨put k v m.toList, put_ascending k v m.ascending⟩

/-- Keeps the entries that satisfy `p`. -/
def filter (m : SortedMap κ ν) (p : κ → ν → Bool) : SortedMap κ ν :=
  ⟨m.toList.filter fun e => p e.1 e.2, m.ascending.filter _⟩

/-- Applies `f` to every entry's value. -/
def mapValues (m : SortedMap κ ν) (f : κ → ν → μ) : SortedMap κ μ :=
  ⟨m.toList.map fun e => (e.1, f e.1 e.2), m.ascending.map _ fun _ _ h => h⟩

/-- The keys, ascending. -/
def keys (m : SortedMap κ ν) : List κ := m.toList.map Prod.fst

/-- The values, by ascending key. -/
def values (m : SortedMap κ ν) : List ν := m.toList.map Prod.snd

/-- The number of entries. -/
def size (m : SortedMap κ ν) : Nat := m.toList.length

/-- Whether there is no entry. -/
def isEmpty (m : SortedMap κ ν) : Bool := m.toList.isEmpty

/-- The map of a list of entries; of several entries with one key the last counts. -/
def ofList [Std.TransOrd κ] (l : List (κ × ν)) : SortedMap κ ν :=
  l.foldl (fun m e => m.insert e.1 e.2) empty

variable [DecidableEq κ]

/-- The value stored under `k`. -/
def get? (m : SortedMap κ ν) (k : κ) : Option ν := lookup k m.toList

/-- Whether `k` has a value. -/
def contains (m : SortedMap κ ν) (k : κ) : Bool := (m.get? k).isSome

/-- Drops the entry of `k`, if there is one. -/
def erase (m : SortedMap κ ν) (k : κ) : SortedMap κ ν := m.filter fun k' _ => k' != k

/-- Replaces the value under `k`, if there is one, by its image under `f`. -/
def modify (m : SortedMap κ ν) (k : κ) (f : ν → ν) : SortedMap κ ν :=
  m.mapValues fun k' v => if k' = k then f v else v

/-! ## The view of each operation -/

@[simp] theorem get?_empty (k : κ) : (empty : SortedMap κ ν).get? k = none := rfl

@[simp] theorem get?_emptyCollection (k : κ) : (∅ : SortedMap κ ν).get? k = none := rfl

variable [Std.TransOrd κ] [Std.LawfulEqOrd κ]

omit [Std.TransOrd κ] in
theorem lookup_put [Std.OrientedOrd κ] (k k' : κ) (v : ν) (l : List (κ × ν)) :
    lookup k' (put k v l) = if k' = k then some v else lookup k' l := by
  induction l with
  | nil => simp only [put, lookup]
  | cons hd tl ih =>
    obtain ⟨k₀, v₀⟩ := hd
    simp only [put]
    split
    next hlt => simp only [lookup]
    next heq =>
      -- The keys are the same key, so the new entry stands where the old one stood.
      cases Std.LawfulEqOrd.compare_eq_iff_eq.mp heq
      simp only [lookup]
      split <;> simp_all
    next hgt =>
      simp only [lookup, ih]
      by_cases h₁ : k' = k₀
      -- `k` is larger than `k₀`, so whoever looks up `k₀` does not ask for `k`.
      · have hne : ¬ k₀ = k := by
          rintro rfl
          rw [Std.ReflOrd.compare_self] at hgt
          exact absurd hgt (by decide)
        simp [h₁, hne]
      · simp [h₁]

theorem get?_insert (m : SortedMap κ ν) (k k' : κ) (v : ν) :
    (m.insert k v).get? k' = if k' = k then some v else m.get? k' :=
  lookup_put k k' v m.toList

@[simp] theorem get?_insert_self (m : SortedMap κ ν) (k : κ) (v : ν) :
    (m.insert k v).get? k = some v := by simp [get?_insert]

theorem get?_insert_ne (m : SortedMap κ ν) {k k' : κ} (v : ν) (h : k' ≠ k) :
    (m.insert k v).get? k' = m.get? k' := by simp [get?_insert, h]

omit [Std.LawfulEqOrd κ] in
/-- An ascending entry list holds the pair `(k, v)` exactly when looking `k` up gives `v`. -/
theorem lookup_eq_some_iff {l : List (κ × ν)}
    (h : l.Pairwise fun a b => compare a.1 b.1 = .lt) {k : κ} {v : ν} :
    lookup k l = some v ↔ (k, v) ∈ l := by
  induction l with
  | nil => simp [lookup]
  | cons hd tl ih =>
    obtain ⟨k₀, v₀⟩ := hd
    have hhd := (List.pairwise_cons.mp h).1
    have ih := ih (List.pairwise_cons.mp h).2
    simp only [lookup, List.mem_cons, Prod.mk.injEq]
    by_cases hk : k = k₀
    · subst hk
      simp [ne_of_ascending hhd, eq_comm]
    · simp [hk, ih]

omit [Std.LawfulEqOrd κ] in
theorem get?_eq_some_iff {m : SortedMap κ ν} {k : κ} {v : ν} :
    m.get? k = some v ↔ (k, v) ∈ m.toList :=
  lookup_eq_some_iff m.ascending

omit [Std.LawfulEqOrd κ] in
/-- Maps that answer every look-up alike are equal. -/
theorem ext_get? {m m' : SortedMap κ ν} (h : ∀ k, m.get? k = m'.get? k) : m = m' := by
  have hmem : ∀ e, e ∈ m.toList ↔ e ∈ m'.toList := fun e => by
    rw [← get?_eq_some_iff (m := m), ← get?_eq_some_iff (m := m'), h]
  have hne : ∀ x : SortedMap κ ν, x.toList.Nodup := fun x =>
    x.ascending.imp fun hab he => by
      rw [he, Std.ReflOrd.compare_self] at hab
      exact absurd hab (by decide)
  have hperm : m.toList.Perm m'.toList :=
    (List.perm_ext_iff_of_nodup (hne m) (hne m')).mpr fun e => hmem e
  have hlist : m.toList = m'.toList :=
    hperm.eq_of_pairwise (fun a b _ _ hab hba => by
      rw [Std.OrientedCmp.gt_of_lt hba] at hab
      exact absurd hab (by decide)) m.ascending m'.ascending
  obtain ⟨_, _⟩ := m
  obtain ⟨_, _⟩ := m'
  cases hlist
  rfl

omit [Std.LawfulEqOrd κ] in
theorem get?_filter (m : SortedMap κ ν) (p : κ → ν → Bool) (k : κ) :
    (m.filter p).get? k = (m.get? k).filter (p k) := by
  apply Option.ext
  intro v
  rw [get?_eq_some_iff, Option.filter_eq_some_iff, get?_eq_some_iff]
  simp [filter]

omit [Std.LawfulEqOrd κ] in
theorem get?_erase (m : SortedMap κ ν) (k k' : κ) :
    (m.erase k).get? k' = if k' = k then none else m.get? k' := by
  rw [erase, get?_filter]
  by_cases h : k' = k <;> cases m.get? k' <;> simp [h]

omit [Std.LawfulEqOrd κ] in
@[simp] theorem get?_erase_self (m : SortedMap κ ν) (k : κ) : (m.erase k).get? k = none := by
  simp [get?_erase]

omit [Std.LawfulEqOrd κ] in
theorem get?_mapValues (m : SortedMap κ ν) (f : κ → ν → μ) (k : κ) :
    (m.mapValues f).get? k = (m.get? k).map (f k) := by
  apply Option.ext
  intro v
  rw [get?_eq_some_iff, Option.map_eq_some_iff]
  simp only [mapValues, List.mem_map, Prod.mk.injEq, Prod.exists]
  constructor
  · rintro ⟨k', w, hmem, rfl, rfl⟩
    exact ⟨w, get?_eq_some_iff.mpr hmem, rfl⟩
  · rintro ⟨w, hw, rfl⟩
    exact ⟨k, w, get?_eq_some_iff.mp hw, rfl, rfl⟩

omit [Std.LawfulEqOrd κ] in
theorem get?_modify (m : SortedMap κ ν) (k k' : κ) (f : ν → ν) :
    (m.modify k f).get? k' = if k' = k then (m.get? k').map f else m.get? k' := by
  rw [modify, get?_mapValues]
  by_cases h : k' = k <;> simp [h]

omit [Std.LawfulEqOrd κ] in
theorem mem_keys {m : SortedMap κ ν} {k : κ} : k ∈ m.keys ↔ m.contains k = true := by
  simp only [keys, contains, List.mem_map, Prod.exists, exists_and_right, exists_eq_right,
    Option.isSome_iff_exists, get?_eq_some_iff]

end SortedMap

end Telepathy

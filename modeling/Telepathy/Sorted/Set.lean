set_option autoImplicit false

/-!
# Finite sets in ascending order

A `SortedSet α` is the strictly ascending list of its members. As for `SortedMap`, equal members
mean equal sets (`SortedSet.ext_mem`), and listing a set gives its members in order.

The view of a set is membership; each operation has one lemma that says what it does to it.
-/

namespace Telepathy

/-- A finite set, stored as the strictly ascending list of its members. -/
structure SortedSet (α : Type) [Ord α] where
  /-- The members, ascending. -/
  toList : List α
  /-- Members ascend strictly, so none is listed twice. -/
  ascending : toList.Pairwise fun a b => compare a b = .lt
deriving DecidableEq

namespace SortedSet

variable {α : Type} [Ord α]

/-! ## Member lists -/

/-- Puts `a` into an ascending list, unless it is there. -/
def put (a : α) : List α → List α
  | [] => [a]
  | b :: rest =>
    match compare a b with
    | .lt => a :: b :: rest
    | .eq => b :: rest
    | .gt => b :: put a rest

theorem mem_put_imp {a b : α} {l : List α} (h : b ∈ put a l) : b = a ∨ b ∈ l := by
  induction l with
  | nil => simpa [put] using h
  | cons hd tl ih =>
    simp only [put] at h
    split at h
    · simpa using h
    · exact .inr h
    · rcases List.mem_cons.mp h with h | h
      · exact .inr (h ▸ List.mem_cons_self)
      · exact (ih h).imp id (List.mem_cons_of_mem _)

theorem put_ascending [Std.TransOrd α] (a : α) {l : List α}
    (h : l.Pairwise fun a b => compare a b = .lt) :
    (put a l).Pairwise fun a b => compare a b = .lt := by
  induction l with
  | nil => simp [put]
  | cons hd tl ih =>
    have hhd : ∀ e ∈ tl, compare hd e = .lt := (List.pairwise_cons.mp h).1
    simp only [put]
    split
    next hlt =>
      refine List.pairwise_cons.mpr ⟨fun e he => ?_, h⟩
      rcases List.mem_cons.mp he with rfl | he
      · exact hlt
      · exact Std.TransCmp.lt_trans hlt (hhd e he)
    -- The member is there already, and the list stays as it is.
    next heq => exact h
    next hgt =>
      refine List.pairwise_cons.mpr ⟨fun e he => ?_, ih (List.pairwise_cons.mp h).2⟩
      rcases mem_put_imp he with rfl | he
      · exact Std.OrientedCmp.lt_of_gt hgt
      · exact hhd e he

/-! ## Sets -/

instance : Membership α (SortedSet α) := ⟨fun s a => a ∈ s.toList⟩

theorem mem_def {s : SortedSet α} {a : α} : a ∈ s ↔ a ∈ s.toList := .rfl

instance [DecidableEq α] (a : α) (s : SortedSet α) : Decidable (a ∈ s) :=
  inferInstanceAs (Decidable (a ∈ s.toList))

/-- The set without members. -/
def empty : SortedSet α := ⟨[], .nil⟩

instance : EmptyCollection (SortedSet α) := ⟨empty⟩

instance : Inhabited (SortedSet α) := ⟨empty⟩

/-- Adds a member. -/
def insert [Std.TransOrd α] (s : SortedSet α) (a : α) : SortedSet α :=
  ⟨put a s.toList, put_ascending a s.ascending⟩

/-- The set of the elements of a list. -/
def ofList [Std.TransOrd α] (l : List α) : SortedSet α := l.foldl insert empty

/-- The members of either set. -/
def union [Std.TransOrd α] (s t : SortedSet α) : SortedSet α := t.toList.foldl insert s

/-- Keeps the members that satisfy `p`. -/
def filter (s : SortedSet α) (p : α → Bool) : SortedSet α :=
  ⟨s.toList.filter p, s.ascending.filter _⟩

/-- Drops a member. -/
def erase [DecidableEq α] (s : SortedSet α) (a : α) : SortedSet α := s.filter (· != a)

/-- The members of `s` that are not in `t`. -/
def diff [DecidableEq α] (s t : SortedSet α) : SortedSet α := s.filter (· ∉ t)

/-- Whether the sets share a member. -/
def intersects [DecidableEq α] (s t : SortedSet α) : Bool := s.toList.any (· ∈ t)

/-- The number of members. -/
def size (s : SortedSet α) : Nat := s.toList.length

/-- Whether there is no member. -/
def isEmpty (s : SortedSet α) : Bool := s.toList.isEmpty

/-! ## The view of each operation -/

@[simp] theorem not_mem_empty (a : α) : a ∉ (empty : SortedSet α) := List.not_mem_nil

@[simp] theorem not_mem_emptyCollection (a : α) : a ∉ (∅ : SortedSet α) := List.not_mem_nil

@[simp] theorem mem_filter {s : SortedSet α} {p : α → Bool} {a : α} :
    a ∈ s.filter p ↔ a ∈ s ∧ p a = true := List.mem_filter

theorem nodup [Std.ReflOrd α] (s : SortedSet α) : s.toList.Nodup :=
  s.ascending.imp fun hab he => by
    rw [he, Std.ReflOrd.compare_self] at hab
    exact absurd hab (by decide)

/-- Sets with the same members are equal. -/
theorem ext_mem [Std.TransOrd α] {s t : SortedSet α} (h : ∀ a, a ∈ s ↔ a ∈ t) : s = t := by
  have hlist : s.toList = t.toList :=
    ((List.perm_ext_iff_of_nodup s.nodup t.nodup).mpr fun a => h a).eq_of_pairwise
      (fun a b _ _ hab hba => by
        rw [Std.OrientedCmp.gt_of_lt hba] at hab
        exact absurd hab (by decide)) s.ascending t.ascending
  obtain ⟨_, _⟩ := s
  obtain ⟨_, _⟩ := t
  cases hlist
  rfl

section Insert

variable [Std.TransOrd α] [Std.LawfulEqOrd α]

omit [Std.TransOrd α] in
theorem mem_put {a b : α} {l : List α} : b ∈ put a l ↔ b = a ∨ b ∈ l := by
  refine ⟨mem_put_imp, fun h => ?_⟩
  induction l with
  | nil => simpa [put] using h
  | cons hd tl ih =>
    simp only [put]
    split
    next => simpa using h
    next heq =>
      cases Std.LawfulEqOrd.compare_eq_iff_eq.mp heq
      simpa using h
    next =>
      rcases h with h | h
      · exact List.mem_cons_of_mem _ (ih (.inl h))
      · rcases List.mem_cons.mp h with h | h
        · exact h ▸ List.mem_cons_self
        · exact List.mem_cons_of_mem _ (ih (.inr h))

@[simp] theorem mem_insert {s : SortedSet α} {a b : α} : b ∈ s.insert a ↔ b = a ∨ b ∈ s := mem_put

theorem mem_foldl_insert {l : List α} {s : SortedSet α} {a : α} :
    a ∈ l.foldl insert s ↔ a ∈ s ∨ a ∈ l := by
  induction l generalizing s with
  | nil => simp
  | cons hd tl ih => simp [ih, or_assoc, or_comm, or_left_comm]

@[simp] theorem mem_ofList {l : List α} {a : α} : a ∈ ofList l ↔ a ∈ l := by
  simp [ofList, mem_foldl_insert]

@[simp] theorem mem_union {s t : SortedSet α} {a : α} : a ∈ s.union t ↔ a ∈ s ∨ a ∈ t :=
  mem_foldl_insert

end Insert

section Erase

variable [DecidableEq α]

@[simp] theorem mem_erase {s : SortedSet α} {a b : α} : b ∈ s.erase a ↔ b ∈ s ∧ b ≠ a := by
  simp [erase]

@[simp] theorem mem_diff {s t : SortedSet α} {a : α} : a ∈ s.diff t ↔ a ∈ s ∧ a ∉ t := by
  simp [diff]

theorem intersects_iff {s t : SortedSet α} : s.intersects t = true ↔ ∃ a, a ∈ s ∧ a ∈ t := by
  simp [intersects, mem_def]

theorem intersects_eq_false_iff {s t : SortedSet α} :
    s.intersects t = false ↔ ∀ a ∈ s, a ∉ t := by
  rw [← Bool.not_eq_true, intersects_iff]
  exact ⟨fun h a hs ht => h ⟨a, hs, ht⟩, fun h ⟨a, hs, ht⟩ => h a hs ht⟩

/-- A member that was not there before is gone without a trace once it is dropped. -/
theorem erase_insert_of_notMem [Std.TransOrd α] [Std.LawfulEqOrd α] {s : SortedSet α} {a : α}
    (h : a ∉ s) : (s.insert a).erase a = s := by
  refine ext_mem fun b => ?_
  rw [mem_erase, mem_insert]
  constructor
  · rintro ⟨rfl | hb, hne⟩
    · exact absurd rfl hne
    · exact hb
  · intro hb
    exact ⟨.inr hb, fun hba => h (hba ▸ hb)⟩

end Erase

theorem isEmpty_iff {s : SortedSet α} : s.isEmpty = true ↔ ∀ a, a ∉ s := by
  rw [isEmpty, List.isEmpty_iff, List.eq_nil_iff_forall_not_mem]
  exact .rfl

end SortedSet

end Telepathy

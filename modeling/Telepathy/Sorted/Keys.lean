import Telepathy.Sorted.Map
import Telepathy.Sorted.Set

set_option autoImplicit false

/-!
# Keys of a map as a set

The keys of a sorted map, or those whose value has a property, already form a sorted set.
-/

namespace Telepathy.SortedMap

variable {κ ν : Type} [Ord κ]

/-- The keys whose value satisfies `p`. -/
def keysWhere (m : SortedMap κ ν) (p : ν → Bool) : SortedSet κ :=
  ⟨(m.filter fun _ v => p v).keys, (m.filter fun _ v => p v).ascending.map _ fun _ _ h => h⟩

/-- All keys. -/
def keySet (m : SortedMap κ ν) : SortedSet κ := m.keysWhere fun _ => true

variable [DecidableEq κ] [Std.TransOrd κ]

theorem mem_keysWhere {m : SortedMap κ ν} {p : ν → Bool} {k : κ} :
    k ∈ m.keysWhere p ↔ ∃ v, m.get? k = some v ∧ p v = true := by
  rw [SortedSet.mem_def, keysWhere, mem_keys, contains, get?_filter, Option.isSome_iff_exists]
  simp only [Option.filter_eq_some_iff]

theorem mem_keySet {m : SortedMap κ ν} {k : κ} : k ∈ m.keySet ↔ ∃ v, m.get? k = some v := by
  simp [keySet, mem_keysWhere]

end Telepathy.SortedMap

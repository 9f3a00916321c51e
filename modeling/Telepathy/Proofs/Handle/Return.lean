import Telepathy.Handle.Tables
import Telepathy.Proofs.Handle.Growth

set_option autoImplicit false

/-!
# References that are given back

To give back a reference undoes what taking it did, whether its handle is in use or not, and it does
not matter in which order references are given back. So whoever takes some references and gives the
same ones back leaves the tables as they were, not only what they count.
-/

namespace Telepathy

namespace HandleTable

variable (t : HandleTable) (h h' : Handle)

theorem release_retain : (t.retain h).release h = t := by
  have hentries : ((t.retain h).release h).entries = t.entries := by
    refine SortedMap.ext_get? fun k => ?_
    simp only [retain, release, SortedMap.get?_modify]
    split
    · cases t.entries.get? k <;> simp
    · rfl
  exact congrArg (fun entries => { t with entries }) hentries

theorem release_comm : (t.release h).release h' = (t.release h').release h := by
  have hentries : ((t.release h).release h').entries = ((t.release h').release h).entries := by
    refine SortedMap.ext_get? fun k => ?_
    simp only [release, SortedMap.get?_modify]
    -- On a handle that is given back twice the two orders are one.
    by_cases hk : k = h <;> by_cases hk' : k = h' <;> simp [hk, hk'] <;> simp_all
  exact congrArg (fun entries => { t with entries }) hentries

end HandleTable

namespace HandleTables

variable (ts : HandleTables)

theorem modify_modify (e : EntityType) (f g : HandleTable → HandleTable) :
    (ts.modify e f).modify e g = ts.modify e (g ∘ f) := by
  cases e <;> simp [modify]

theorem modify_comm {e e' : EntityType} (h : e ≠ e') (f g : HandleTable → HandleTable) :
    (ts.modify e f).modify e' g = (ts.modify e' g).modify e f := by
  cases e <;> cases e' <;> first | rfl | exact absurd rfl h

theorem modify_id (e : EntityType) {f : HandleTable → HandleTable} (h : ∀ t, f t = t) :
    ts.modify e f = ts := by
  have hid : f = id := funext h
  subst hid
  cases e <;> simp [modify]

theorem release_retain (r : Reference) : (ts.retain r).release r = ts := by
  unfold retain release
  rw [modify_modify]
  exact ts.modify_id _ fun t => t.release_retain r.handle

theorem release_comm (r r' : Reference) :
    (ts.release r).release r' = (ts.release r').release r := by
  unfold release
  by_cases he : r.entity = r'.entity
  · rw [he, modify_modify, modify_modify]
    congr 1
    funext t
    exact t.release_comm r.handle r'.handle
  · exact ts.modify_comm he _ _

theorem releaseAll_perm {l l' : List Reference} (h : l.Perm l') :
    ts.releaseAll l = ts.releaseAll l' :=
  h.foldl_eq' (fun r _ r' _ ts => ts.release_comm r r') ts

/-- Whoever takes references and gives back the same leaves the tables as they were. -/
theorem releaseAll_retainAll {l l' : List Reference} (h : l.Perm l') :
    (ts.retainAll l).releaseAll l' = ts := by
  rw [← releaseAll_perm _ h]
  clear h
  induction l generalizing ts with
  | nil => rfl
  | cons r l ih =>
    -- What was taken first is given back last.
    rw [releaseAll_perm _ (List.perm_append_singleton r l).symm]
    show ((ts.retain r).retainAll l).releaseAll (l ++ [r]) = ts
    have hlast : ∀ ts : HandleTables, ts.releaseAll (l ++ [r]) = (ts.releaseAll l).release r := by
      intro ts
      simp [releaseAll]
    rw [hlast, ih, release_retain]

end HandleTables

end Telepathy

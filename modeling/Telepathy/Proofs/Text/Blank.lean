import Telepathy.ContactList.MemoryServer
import Telepathy.Text.Blank

set_option autoImplicit false

/-!
# Texts without blanks at their ends

Cutting off blanks and turning to lower case are done once and for all, and in any order. So names
and addresses that were brought to a canonical form this way are in it.
-/

namespace Telepathy

namespace Text

theorem toLower_of_not_upper {c : Char} (h : ¬(65 ≤ c.toNat ∧ c.toNat ≤ 90)) : c.toLower = c := by
  unfold Char.toLower
  rw [dif_neg]
  rintro ⟨hlow, hhigh⟩
  exact h ⟨UInt32.le_iff_toNat_le.mp hlow, UInt32.le_iff_toNat_le.mp hhigh⟩

theorem toNat_toLower {c : Char} (h : 65 ≤ c.toNat ∧ c.toNat ≤ 90) :
    c.toLower.toNat = c.toNat + 32 := by
  unfold Char.toLower
  rw [dif_pos ⟨UInt32.le_iff_toNat_le.mpr h.1, UInt32.le_iff_toNat_le.mpr h.2⟩]
  show (c.toNat + 32) % 2 ^ 32 = c.toNat + 32
  omega

theorem toLower_toLower (c : Char) : c.toLower.toLower = c.toLower := by
  by_cases hupper : 65 ≤ c.toNat ∧ c.toNat ≤ 90
  · have hlower := toNat_toLower hupper
    exact toLower_of_not_upper (by omega)
  · rw [toLower_of_not_upper hupper, toLower_of_not_upper hupper]

/-- Lower case makes no letter of a blank, and no blank of a letter. -/
theorem isBlank_toLower (c : Char) : isBlank c.toLower = isBlank c := by
  by_cases hupper : 65 ≤ c.toNat ∧ c.toNat ≤ 90
  · rw [Bool.eq_iff_iff]
    simp only [isBlank, blankRanges, toNat_toLower hupper, List.any_cons, List.any_nil,
      Bool.or_false, Bool.or_eq_true, Bool.and_eq_true, decide_eq_true_iff]
    omega
  · rw [toLower_of_not_upper hupper]

theorem dropWhile_dropWhile {α : Type} (p : α → Bool) (l : List α) :
    (l.dropWhile p).dropWhile p = l.dropWhile p := by
  induction l with
  | nil => rfl
  | cons a l ih =>
    by_cases ha : p a = true
    · simpa [ha] using ih
    · simp [ha]

/-- Cutting off the end does not uncover anything to cut off at the front. -/
theorem dropWhile_of_dropEnd {α : Type} (p : α → Bool) {l : List α} (hfront : l.dropWhile p = l) :
    ((l.reverse.dropWhile p).reverse).dropWhile p = (l.reverse.dropWhile p).reverse := by
  cases l with
  | nil => rfl
  | cons a l =>
    have ha : ¬p a = true := fun ha => by
      have hlength := congrArg List.length hfront
      have hrest := (List.dropWhile_sublist p (l := l)).length_le
      simp [ha] at hlength
      omega
    rw [List.reverse_cons, List.dropWhile_append]
    split
    · simp [ha]
    · simp [ha]

theorem trim_trim (s : String) : trim (trim s) = trim s := by
  unfold trim
  rw [String.toList_ofList, dropWhile_of_dropEnd isBlank (dropWhile_dropWhile isBlank s.toList),
    List.reverse_reverse, dropWhile_dropWhile]

theorem trim_lower (s : String) : trim (lower s) = lower (trim s) := by
  have hblank : isBlank ∘ Char.toLower = isBlank := funext isBlank_toLower
  simp only [trim, lower, String.toList_ofList, List.dropWhile_map, ← List.map_reverse, hblank]

theorem lower_lower (s : String) : lower (lower s) = lower s := by
  simp only [lower, String.toList_ofList, List.map_map]
  congr 1
  exact List.map_congr_left fun c _ => toLower_toLower c

theorem lower_eq_empty {s : String} : lower s = "" ↔ s = "" := by
  rw [lower, ← String.toList_inj, ← String.toList_inj, String.toList_ofList]
  simp

end Text

/-! ## Names of groups -/

namespace MemoryRoster

/-- The canonical form of a group's name is its own canonical form. -/
theorem idempotent_normaliseGroup (capabilities : Capabilities) (lacking : List ServerFeature)
    (caseless : Bool) {name canonical : String}
    (h : (server capabilities lacking caseless).normaliseGroup name = some canonical) :
    (server capabilities lacking caseless).normaliseGroup canonical = some canonical := by
  have htrimmed : ∀ {name trimmed : String},
      ContactServer.trimmedGroup name = some trimmed ↔
        Text.trim name ≠ "" ∧ Text.trim name = trimmed := by
    intro name trimmed
    rw [ContactServer.trimmedGroup, Option.ite_none_left_eq_some, Option.some.injEq]
  obtain ⟨trimmed, hname, hcanonical⟩ := Option.map_eq_some_iff.mp h
  obtain ⟨hsome, rfl⟩ := htrimmed.mp hname
  refine Option.map_eq_some_iff.mpr ⟨canonical, htrimmed.mpr ?_, ?_⟩
  · cases caseless with
    | false =>
      cases hcanonical
      rw [if_neg (by decide), Text.trim_trim]
      exact ⟨hsome, rfl⟩
    | true =>
      cases hcanonical
      rw [if_pos rfl, Text.trim_lower, Text.trim_trim]
      exact ⟨fun hnone => hsome (Text.lower_eq_empty.mp hnone), rfl⟩
  · cases caseless with
    | false => rfl
    | true =>
      cases hcanonical
      exact Text.lower_lower _

end MemoryRoster

end Telepathy

import Telepathy.Proofs.Group.Operations

set_option autoImplicit false

/-!
# What the passes of a batch come to

A pass does the same to each handle of a list, so what it makes of a set, of the records or of the
notes can be said at once for the whole list. Put together, the nine passes have a plain sum: each
set gains those the batch puts there and loses all others it names, whatever was where before and
even if the batch names a handle twice.
-/

namespace Telepathy

namespace GroupSets

variable {g : GroupSets} {provenance : Provenance} {r r' : Room} {h : Handle}

/-! ## Sets and records -/

theorem mem_room_put {a : Handle} :
    h ∈ (g.put provenance r a).room r' ↔ h ∈ g.room r' ∨ (r' = r ∧ h = a) := by
  cases r <;> cases r' <;> simp [put, room, or_comm]

theorem mem_room_drop {a : Handle} :
    h ∈ (g.drop r a).room r' ↔ h ∈ g.room r' ∧ ¬ (r' = r ∧ h = a) := by
  cases r <;> cases r' <;> simp [drop, room]

theorem get?_records_put (provenance : Provenance) (r : Room) (g : GroupSets) (a h : Handle) :
    (g.put provenance r a).records.get? h =
      if r = .localPending ∧ h = a then some provenance else g.records.get? h := by
  cases r <;> simp [put, SortedMap.get?_insert]

theorem get?_records_drop (r : Room) (g : GroupSets) (a h : Handle) :
    (g.drop r a).records.get? h =
      if r = .localPending ∧ h = a then none else g.records.get? h := by
  cases r <;> simp [drop, SortedMap.get?_erase]

/-- The state without its sets and records. -/
def rest (g : GroupSets) : Option Handle × GroupFlags × SortedMap Handle Handle × List Signal :=
  (g.self, g.flags, g.owners, g.signals)

theorem mem_room_foldl_put {l : List Handle} :
    h ∈ (l.foldl (put provenance r) g).room r' ↔ h ∈ g.room r' ∨ (r' = r ∧ h ∈ l) := by
  induction l generalizing g with
  | nil => simp
  | cons a l ih => rw [List.foldl_cons, ih, mem_room_put, List.mem_cons, and_or_left, or_assoc]

theorem mem_room_foldl_drop {l : List Handle} :
    h ∈ (l.foldl (drop r) g).room r' ↔ h ∈ g.room r' ∧ ¬ (r' = r ∧ h ∈ l) := by
  induction l generalizing g with
  | nil => simp
  | cons a l ih =>
    rw [List.foldl_cons, ih, mem_room_drop, List.mem_cons, and_or_left, not_or, and_assoc]

/-- What is done to the record of each handle of a list, whichever it is, is done once. -/
theorem get?_records_foldl {f : GroupSets → Handle → GroupSets} {record : Option Provenance}
    (hf : ∀ g a h, (f g a).records.get? h =
      if r = .localPending ∧ h = a then record else g.records.get? h)
    (l : List Handle) (g : GroupSets) (h : Handle) :
    (l.foldl f g).records.get? h =
      if r = .localPending ∧ h ∈ l then record else g.records.get? h := by
  induction l generalizing g with
  | nil => simp
  | cons a l ih =>
    rw [List.foldl_cons, ih, hf]
    by_cases hl : h ∈ l
    · by_cases hr : r = .localPending <;> simp [hr, hl]
    · simp [hl]

theorem rest_foldl_put (l : List Handle) (g : GroupSets) :
    (l.foldl (put provenance r) g).rest = g.rest :=
  List.foldl_keeps rest (fun _ _ => by cases r <;> rfl) l g

theorem rest_foldl_drop (l : List Handle) (g : GroupSets) :
    (l.foldl (drop r) g).rest = g.rest :=
  List.foldl_keeps rest (fun _ _ => by cases r <;> rfl) l g

end GroupSets

namespace Sweep

open GroupSets

variable {s : Sweep} {provenance : Provenance} {r : Room} {l : List Handle} {h : Handle}

/-! ## One pass -/

theorem group_foldl_enter :
    (l.foldl (enter provenance r) s).group = l.foldl (put provenance r) s.group :=
  (List.foldl_hom Sweep.group fun _ _ => rfl).symm

theorem group_foldl_quit : (l.foldl (quit r) s).group = l.foldl (drop r) s.group :=
  (List.foldl_hom Sweep.group fun _ _ => rfl).symm

theorem group_foldl_leave : (l.foldl (leave r) s).group = l.foldl (drop r) s.group :=
  (List.foldl_hom Sweep.group fun _ _ => rfl).symm

/-- Those are noted who were not in the set yet. -/
theorem entered_foldl_enter (hl : l.Nodup) (s : Sweep) (r' : Room) :
    (l.foldl (enter provenance r) s).entered r' =
      s.entered r' ++ if r' = r then l.filter (· ∉ s.group.room r) else [] := by
  induction l generalizing s with
  | nil => simp
  | cons a l ih =>
    obtain ⟨ha, hl⟩ := List.nodup_cons.mp hl
    -- None of those to come is the one just put there.
    have hstill : l.filter (· ∉ (s.enter provenance r a).group.room r) =
        l.filter (· ∉ s.group.room r) := by
      refine List.filter_congr fun b hb => ?_
      have hne : b ≠ a := fun hab => ha (hab ▸ hb)
      simp [enter, mem_room_put, hne]
    rw [List.foldl_cons, ih hl, hstill, enter]
    by_cases hr : r' = r
    · by_cases hin : a ∈ s.group.room r <;> simp [hr, hin]
    · simp [hr]

theorem entered_foldl_quit : (l.foldl (quit r) s).entered = s.entered :=
  List.foldl_keeps entered (f := quit r) (fun _ _ => rfl) l s

theorem entered_foldl_leave : (l.foldl (leave r) s).entered = s.entered :=
  List.foldl_keeps entered (f := leave r) (fun _ _ => rfl) l s

theorem removed_foldl_enter : (l.foldl (enter provenance r) s).removed = s.removed :=
  List.foldl_keeps removed (f := enter provenance r) (fun _ _ => rfl) l s

theorem removed_foldl_quit : (l.foldl (quit r) s).removed = s.removed :=
  List.foldl_keeps removed (f := quit r) (fun _ _ => rfl) l s

/-- Those are noted who were in the set. -/
theorem mem_removed_foldl_leave :
    h ∈ (l.foldl (leave r) s).removed ↔ h ∈ s.removed ∨ (h ∈ l ∧ h ∈ s.group.room r) := by
  induction l generalizing s with
  | nil => simp
  | cons a l ih =>
    rw [List.foldl_cons, ih]
    by_cases hin : a ∈ s.group.room r <;> by_cases ha : h = a <;>
      simp [leave, mem_room_drop, hin, ha]

/-! ## All passes -/

section Passes

variable {g : GroupSets} {joining leaving applying invited : SortedSet Handle}

theorem group_passes :
    (passes g joining leaving applying invited provenance).group =
      let g := joining.toList.foldl (put provenance .members) g
      let g := leaving.toList.foldl (drop .members) g
      let g := (applying.toList ++ invited.toList).foldl (drop .members) g
      let g := applying.toList.foldl (put provenance .localPending) g
      let g := (joining.toList ++ invited.toList).foldl (drop .localPending) g
      let g := leaving.toList.foldl (drop .localPending) g
      let g := invited.toList.foldl (put provenance .remotePending) g
      let g := (joining.toList ++ applying.toList).foldl (drop .remotePending) g
      leaving.toList.foldl (drop .remotePending) g := by
  simp only [passes, start, group_foldl_enter, group_foldl_quit, group_foldl_leave]

/-- A set gains those that the batch puts there, and loses all others that the batch names. -/
theorem mem_room_passes :
    h ∈ (passes g joining leaving applying invited provenance).group.room r ↔
      (h ∈ g.room r ∨ h ∈ r.sent joining applying invited) ∧ h ∉ leaving ∧
        ∀ r', r' ≠ r → h ∉ r'.sent joining applying invited := by
  rw [Room.forall_iff]
  cases r
  -- With each pass read as what it does to one handle, the rest is propositional.
  all_goals
    simp only [group_passes, mem_room_foldl_put, mem_room_foldl_drop, List.mem_append, Room.sent,
      ← SortedSet.mem_def, reduceCtorEq]
    grind

/-- Those who are to wait and are named nowhere else are on record with the batch, and whoever else
it names is not on record. -/
theorem get?_records_passes :
    (passes g joining leaving applying invited provenance).group.records.get? h =
      if h ∈ joining ∨ h ∈ leaving ∨ h ∈ invited then none
      else if h ∈ applying then some provenance
      else g.records.get? h := by
  simp only [group_passes, get?_records_foldl (get?_records_put _ _),
    get?_records_foldl (get?_records_drop _), List.mem_append]
  -- The last pass that names a handle settles its record.
  by_cases hl : h ∈ leaving.toList
  · simp [SortedSet.mem_def, hl]
  · by_cases hj : h ∈ joining.toList
    · simp [SortedSet.mem_def, hl, hj]
    · by_cases hp : h ∈ invited.toList <;> simp [SortedSet.mem_def, hl, hj, hp]

/-- The passes concern the sets and the records only. -/
theorem frame_passes :
    (passes g joining leaving applying invited provenance).group.self = g.self ∧
      (passes g joining leaving applying invited provenance).group.flags = g.flags ∧
      (passes g joining leaving applying invited provenance).group.owners = g.owners ∧
      (passes g joining leaving applying invited provenance).group.signals = g.signals := by
  have hrest : (passes g joining leaving applying invited provenance).group.rest = g.rest := by
    simp only [group_passes, rest_foldl_put, rest_foldl_drop]
  simpa only [rest, Prod.mk.injEq] using hrest

/-- Those are noted as new to a set whom the batch puts there and who were not there before. -/
theorem entered_passes :
    (passes g joining leaving applying invited provenance).entered r =
      ((r.sent joining applying invited).filter (· ∉ g.room r)).toList := by
  cases r
  all_goals
    simp only [passes, start, entered_foldl_leave, entered_foldl_quit,
      entered_foldl_enter (SortedSet.nodup _), group_foldl_enter, group_foldl_quit,
      group_foldl_leave, reduceCtorEq, if_true, if_false, List.nil_append, List.append_nil]
    -- No pass before touches the set that is about to be filled.
    refine List.filter_congr fun h _ => decide_eq_decide.mpr (not_congr ?_)
    simp [mem_room_foldl_put, mem_room_foldl_drop]

/-- Those are noted as removed who are to leave and are found in one of the sets when their turn
comes, be it that the batch put them there. -/
theorem mem_removed_passes :
    h ∈ (passes g joining leaving applying invited provenance).removed ↔
      h ∈ leaving ∧ (h ∈ g.members ∨ h ∈ joining ∨
        ((h ∈ g.localPending ∨ h ∈ applying) ∧ h ∉ joining ∧ h ∉ invited) ∨
        ((h ∈ g.remotePending ∨ h ∈ invited) ∧ h ∉ joining ∧ h ∉ applying)) := by
  simp only [passes, mem_removed_foldl_leave, removed_foldl_enter, removed_foldl_quit,
    group_foldl_enter, group_foldl_quit, group_foldl_leave, mem_room_foldl_put,
    mem_room_foldl_drop, List.mem_append]
  simp only [SortedSet.mem_def, start, room, SortedSet.empty, List.not_mem_nil, false_or,
    reduceCtorEq, false_and, true_and, or_false, not_false_eq_true, and_true, ← and_or_left,
    or_assoc, not_or]

end Passes

end Sweep

end Telepathy

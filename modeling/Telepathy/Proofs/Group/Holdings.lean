import Telepathy.Proofs.Group.Batch
import Telepathy.Proofs.Sorted.Entries

set_option autoImplicit false

/-!
# What a group holds

A group holds a reference on every handle that its state speaks of, once for each mention. Whoever
carries out an operation counts the references that it takes and those that it gives back. The law
is that these make up the difference: what was held before and what is taken is, as a bag, what is
held afterwards and what is given back. Nothing is taken on a handle that the operation does not
name.
-/

namespace Telepathy

namespace MembershipChange

/-- All handles that a batch speaks of satisfy `P`. -/
structure Within (c : MembershipChange) (P : Handle → Prop) : Prop where
  sent : ∀ h p, c.places.get? h = some p → P h
  actor : ∀ h, c.provenance.actor = some h → P h

variable {P : Handle → Prop} {provenance : Provenance}

theorem within_ofSet {handles : SortedSet Handle} (p : Place) (hhandles : ∀ h ∈ handles, P h)
    (hactor : provenance.actor = none) : (ofSet handles p provenance).Within P where
  sent h p' hget := by
    rw [get?_ofSet] at hget
    split at hget
    case isTrue hin => exact hhandles h hin
    case isFalse => cases hget
  actor h ha := by cases hactor.symm.trans ha

theorem within_ofReadings {departed present : SortedSet Handle} (place? : Handle → Option Place)
    (hdeparted : ∀ h ∈ departed, P h) (hpresent : ∀ h ∈ present, P h)
    (hactor : provenance.actor = none) :
    (ofReadings departed present place? provenance).Within P where
  sent h p hget := by
    rw [get?_ofReadings, Option.or_eq_some_iff] at hget
    rcases hget with hget | ⟨-, hget⟩
    · split at hget
      case isTrue hin => exact hpresent h hin
      case isFalse => cases hget
    · split at hget
      case isTrue hin => exact hdeparted h hin
      case isFalse => cases hget
  actor h ha := by cases hactor.symm.trans ha

end MembershipChange

namespace Membership

/-! ## One handle -/

/-- To send a handle to its place exchanges what its old standing holds, and its owner if it leaves,
for what its new standing holds. -/
theorem holds_send (provenance : Provenance) (u : Progress) (h : Handle) (p : Place) :
    ∃ taken given, (u.send provenance h p).retained = u.retained ++ taken ∧
      (u.send provenance h p).released = u.released ++ given ∧
      (u.membership.holds ++ taken).Perm ((u.send provenance h p).membership.holds ++ given) := by
  refine ⟨_, _, rfl, List.append_assoc .., List.perm_iff_count.mpr fun x => ?_⟩
  have hbefore := (SortedMap.flatMap_perm_erase u.membership.standings h
    fun e => e.2.holds e.1).count_eq x
  simp only [Progress.send, settle]
  cases hs : Standing.ofPlace? p provenance with
  | some s =>
    have hp : p ≠ .outside := by
      rintro rfl
      cases hs
    have hafter := ((SortedMap.toList_insert_perm u.membership.standings h s).flatMap_right
      fun e => e.2.holds e.1).count_eq x
    simp only [holds, hp, false_and, if_false, Option.elim, List.flatMap_cons, List.count_append,
      List.append_nil] at hbefore hafter ⊢
    omega
  | none =>
    by_cases hin : u.membership.contains h = true
    · have hp : p = .outside := by
        cases p with
        | outside => rfl
        | member | localPending | remotePending => cases hs
      have howners := (u.membership.owners.values_erase_perm h).count_eq x
      simp only [holds, hp, hin, and_self, if_true, Option.elim, List.count_append,
        List.append_nil] at hbefore howners ⊢
      omega
    · have habsent : u.membership.standings.get? h = none := Option.not_isSome_iff_eq_none.mp hin
      simp [hin, habsent]

/-- Whatever is taken for a handle in its new place, it is for the handle or for the actor. -/
theorem holds_ofPlace? {P : Handle → Prop} {c : MembershipChange} (hc : c.Within P) {h x : Handle}
    {p : Place} (hp : c.places.get? h = some p)
    (hx : x ∈ (Standing.ofPlace? p c.provenance).elim [] (·.holds h)) : P x := by
  cases p with
  | member | remotePending =>
    obtain rfl := List.mem_singleton.mp hx
    exact hc.sent x _ hp
  | localPending =>
    rcases List.mem_cons.mp hx with rfl | hx
    · exact hc.sent x _ hp
    · exact hc.actor x (Option.mem_toList.mp hx)
  | outside => cases hx

/-! ## A batch -/

variable (m : Membership) (c : MembershipChange)

/-- A batch gives back and takes what makes the difference between what was held before and what is
held afterwards. -/
theorem holds_change :
    (m.holds ++ (m.change c).retained).Perm ((m.change c).membership.holds ++ (m.change c).released)
    := by
  have hfold : ∀ (l : List (Handle × Place)) (u : Progress),
      (m.holds ++ u.retained).Perm (u.membership.holds ++ u.released) →
      let u' := l.foldl (fun u e => u.send c.provenance e.1 e.2) u
      (m.holds ++ u'.retained).Perm (u'.membership.holds ++ u'.released) := by
    intro l
    induction l with
    | nil => exact fun _ h => h
    | cons e l ih =>
      intro u h
      obtain ⟨taken, given, hretained, hreleased, hsent⟩ := holds_send c.provenance u e.1 e.2
      refine ih _ (List.perm_iff_count.mpr fun x => ?_)
      have hbefore := h.count_eq x
      have hnow := hsent.count_eq x
      rw [hretained, hreleased]
      simp only [List.count_append] at hbefore hnow ⊢
      omega
  exact hfold c.places.toList ⟨m, [], [], []⟩ (.refl _)

/-- A batch takes references only on handles that it speaks of. -/
theorem retained_change {P : Handle → Prop} (hc : c.Within P) :
    ∀ h ∈ (m.change c).retained, P h := by
  have hfold : ∀ (l : List (Handle × Place)) (u : Progress), (∀ e ∈ l, e ∈ c.places.toList) →
      (∀ h ∈ u.retained, P h) →
      ∀ h ∈ (l.foldl (fun u e => u.send c.provenance e.1 e.2) u).retained, P h := by
    intro l
    induction l with
    | nil => exact fun _ _ h => h
    | cons e l ih =>
      intro u hl hu
      refine ih _ (fun e he => hl e (.tail _ he)) fun h hh => ?_
      rcases List.mem_append.mp hh with hh | hh
      · exact hu h hh
      · exact holds_ofPlace? hc (SortedMap.get?_eq_some_iff.mpr (hl e List.mem_cons_self)) hh
  exact hfold c.places.toList ⟨m, [], [], []⟩ (fun _ he => he) (by simp)

variable {m}

/-- Everyone in a group is held by it. -/
theorem mem_holds_of_standing {h : Handle} {s : Standing} (hs : m.standings.get? h = some s) :
    h ∈ m.holds := by
  refine List.mem_append_left _ (List.mem_append_right _ (List.mem_flatMap.mpr ⟨(h, s), ?_, ?_⟩))
  · exact SortedMap.get?_eq_some_iff.mp hs
  · cases s <;> exact List.mem_cons_self

end Membership

end Telepathy

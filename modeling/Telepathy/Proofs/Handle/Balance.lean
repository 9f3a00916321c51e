import Telepathy.Handle.Store
import Telepathy.Proofs.Handle.Counts

set_option autoImplicit false

/-!
# References in balance

Every reference that is kept somewhere is counted once on its handle, and nothing else is counted.
An operation takes references, gives some back and moves others; between two such moves a reference
may be counted without being kept, and is then said to be in hand. Each move changes the counts and
what is kept or in hand by the same bag of references, so a whole operation leaves the balance even,
and so does every run.
-/

namespace Telepathy

/-! ## The balance of a store -/

namespace ReferenceSet

theorem references_insert {set : ReferenceSet} {h : Handle} (e : EntityType)
    (hnew : set.get? h = none) :
    (references (set.insert h e)).Perm (⟨e, h⟩ :: set.references) := by
  have hperm := (SortedMap.toList_insert_perm set h e).map fun x => (⟨x.2, x.1⟩ : Reference)
  rwa [SortedMap.erase_of_absent hnew] at hperm

theorem references_erase {set : ReferenceSet} {h : Handle} {e : EntityType}
    (hin : set.get? h = some e) :
    set.references.Perm (⟨e, h⟩ :: references (set.erase h)) :=
  (SortedMap.toList_perm_erase hin).map fun x : Handle × EntityType => (⟨x.2, x.1⟩ : Reference)

end ReferenceSet

namespace ReferenceStore

/-- The references that are kept, each as often as it is. -/
def live (s : ReferenceStore) : List Reference :=
  s.kept.values ++ s.sets.values.flatMap ReferenceSet.references

/-- The tables are coherent, and count what is kept and what is in hand. -/
structure Held (s : ReferenceStore) (hand : List Reference) : Prop where
  coherent : s.tables.Coherent
  balanced : ∀ r, s.tables.referencesTo r = (hand ++ s.live).count r

theorem Held.counts {s : ReferenceStore} {hand : List Reference} (hheld : s.Held hand) :
    s.tables.Counts (hand ++ s.live) := ⟨hheld.coherent.sound, hheld.balanced⟩

/-- One move of an operation, or several: from `hand` in hand it leads to `hand'` in hand. -/
def Leads (s : ReferenceStore) (hand : List Reference) (s' : ReferenceStore)
    (hand' : List Reference) : Prop :=
  s.Held hand → s'.Held hand' ∧ s.tables.Succeeds s'.tables

variable {s s' s₁ : ReferenceStore} {hand hand' hand₁ : List Reference} {r : Reference}
  {name : String}

theorem Leads.refl (s : ReferenceStore) (hand : List Reference) : s.Leads hand s hand :=
  fun hheld => ⟨hheld, .refl _⟩

theorem Leads.trans (h : s.Leads hand s' hand') (h' : s'.Leads hand' s₁ hand₁) :
    s.Leads hand s₁ hand₁ := fun hheld =>
  ⟨(h' (h hheld).1).1, (h hheld).2.trans (h' (h hheld).1).2⟩

/-- The order of what is in hand does not matter. -/
theorem Leads.of_perm (s : ReferenceStore) (hperm : hand.Perm hand') : s.Leads hand s hand' :=
  fun hheld => ⟨⟨hheld.coherent, fun r => (hheld.balanced r).trans
    ((hperm.append_right _).count_eq r)⟩, .refl _⟩

/-- A reference that is kept is on a handle in use. -/
theorem Held.isValid (hheld : s.Held hand) (hlive : r ∈ s.live) : s.tables.isValid r = true :=
  hheld.counts.isValid (List.mem_append_right _ hlive)

theorem mem_live_of_kept (hkept : s.kept.get? name = some r) : r ∈ s.live :=
  List.mem_append_left _ (SortedMap.mem_values.mpr ⟨name, hkept⟩)

/-! ### Counting references -/

theorem leads_retain (hvalid : s.tables.isValid r = true) :
    s.Leads hand { s with tables := s.tables.retain r } (r :: hand) := fun hheld =>
  ⟨⟨hheld.coherent.modify fun t ht => (hheld.coherent _ t ht).retain _,
    (hheld.counts.retain hvalid).balanced⟩,
    HandleTables.succeeds_modify fun t _ => t.succeeds_retain _⟩

theorem leads_release (s : ReferenceStore) (hand : List Reference) (r : Reference) :
    s.Leads (r :: hand) { s with tables := s.tables.release r } hand := fun hheld =>
  ⟨⟨hheld.coherent.modify fun t ht => (hheld.coherent _ t ht).release _,
    hheld.counts.release.balanced⟩,
    HandleTables.succeeds_modify fun t _ => t.succeeds_release _⟩

theorem leads_retainAll (l : List Reference) (hvalid : ∀ r ∈ l, s.tables.isValid r = true) :
    s.Leads hand { s with tables := s.tables.retainAll l } (l ++ hand) := by
  induction l generalizing s hand with
  | nil => exact .refl s hand
  | cons r l ih =>
    have hrest : ∀ r' ∈ l, (s.tables.retain r).isValid r' = true := fun r' hr' => by
      rw [HandleTables.isValid_retain]
      exact hvalid r' (.tail _ hr')
    exact ((leads_retain (hvalid r List.mem_cons_self)).trans (ih hrest)).trans
      (.of_perm _ List.perm_middle)

theorem leads_releaseAll (l : List Reference) (s : ReferenceStore) (hand : List Reference) :
    s.Leads (l ++ hand) { s with tables := s.tables.releaseAll l } hand := by
  induction l generalizing s with
  | nil => exact .refl s hand
  | cons r l ih => exact (leads_release s (l ++ hand) r).trans (ih _)

/-! ### Issuing and collecting -/

theorem leads_issues {e : EntityType} {id : String} {x : Handle × HandleTables}
    (hissues : s.tables.Issues e id x) : s.Leads hand { s with tables := x.2 } hand := fun hheld =>
  ⟨⟨hissues.coherent hheld.coherent, (hheld.counts.issues hissues).balanced⟩, hissues.succeeds⟩

theorem leads_tidied {tables : HandleTables} (htidied : s.tables.Tidied tables) :
    s.Leads hand { s with tables } hand := fun hheld =>
  ⟨⟨htidied.coherent hheld.coherent, (hheld.counts.tidied htidied).balanced⟩, htidied.succeeds⟩

/-! ### Names and sets -/

/-- A reference in hand is kept under a name; the one kept there before is in hand then. -/
theorem leads_keepName (s : ReferenceStore) (name : String) (r : Reference)
    (hand : List Reference) :
    s.Leads (r :: hand) { s with kept := s.kept.insert name r }
      ((s.kept.get? name).toList ++ hand) := by
  refine fun hheld => ⟨⟨hheld.coherent, fun r' => ?_⟩, .refl _⟩
  have hbag := (s.kept.values_insert_perm name r).count_eq r'
  rw [hheld.balanced]
  simp only [live, List.count_append, List.count_cons, List.cons_append] at hbag ⊢
  omega

/-- The reference kept under a name is taken from there. -/
theorem leads_dropName (s : ReferenceStore) (name : String) (hand : List Reference) :
    s.Leads hand { s with kept := s.kept.erase name } ((s.kept.get? name).toList ++ hand) := by
  refine fun hheld => ⟨⟨hheld.coherent, fun r' => ?_⟩, .refl _⟩
  have hbag := (s.kept.values_erase_perm name).count_eq r'
  rw [hheld.balanced]
  simp only [live, List.count_append] at hbag ⊢
  omega

theorem references_setNamed (s : ReferenceStore) (name : String) :
    (s.setNamed name).references = (s.sets.get? name).toList.flatMap ReferenceSet.references := by
  unfold setNamed
  cases s.sets.get? name with
  | none => rfl
  | some set => exact (List.append_nil _).symm

theorem mem_live_of_set (hr : r ∈ (s.setNamed name).references) : r ∈ s.live := by
  rw [references_setNamed] at hr
  obtain ⟨members, hmembers, hr⟩ := List.mem_flatMap.mp hr
  have hset : s.sets.get? name = some members := Option.mem_toList.mp hmembers
  exact List.mem_append_right _ (List.mem_flatMap.mpr
    ⟨members, SortedMap.mem_values.mpr ⟨name, hset⟩, hr⟩)

/-- A set is replaced: what is in the new one comes from the old one or from the hand. -/
theorem leads_putSet {set : ReferenceSet}
    (hbag : (hand' ++ set.references).Perm (hand ++ (s.setNamed name).references)) :
    s.Leads hand (s.putSet name set) hand' := by
  refine fun hheld => ⟨⟨hheld.coherent, fun r' => ?_⟩, .refl _⟩
  have hsets := ((s.sets.values_insert_perm name set).flatMap_right
    ReferenceSet.references).count_eq r'
  have hcount := hbag.count_eq r'
  show s.tables.referencesTo r' = _
  rw [hheld.balanced]
  rw [references_setNamed] at hcount
  simp only [live, putSet, List.flatMap_append, List.flatMap_cons, List.count_append]
    at hsets hcount ⊢
  omega

theorem leads_dropSet (s : ReferenceStore) (name : String) (hand : List Reference) :
    s.Leads hand { s with sets := s.sets.erase name } ((s.setNamed name).references ++ hand) := by
  refine fun hheld => ⟨⟨hheld.coherent, fun r' => ?_⟩, .refl _⟩
  have hsets := ((s.sets.values_erase_perm name).flatMap_right
    ReferenceSet.references).count_eq r'
  rw [hheld.balanced, references_setNamed]
  simp only [live, List.flatMap_append, List.count_append] at hsets ⊢
  omega

theorem leads_touchSet (s : ReferenceStore) (name : String) (hand : List Reference) :
    s.Leads hand (s.touchSet name) hand :=
  leads_putSet (.refl _)

theorem setNamed_touchSet (s : ReferenceStore) (name name' : String) :
    (s.touchSet name).setNamed name' = s.setNamed name' := by
  unfold touchSet putSet setNamed
  rw [SortedMap.get?_insert]
  by_cases hname : name' = name
  · simp [hname]
  · simp [hname]

/-! ### The operations -/

theorem leads_keep (hvalid : s.tables.isValid r = true) (keep : Option String) :
    s.Leads [] (s.keep keep r) [] := by
  cases keep with
  | none => exact .refl s []
  | some name =>
    exact ((leads_retain hvalid).trans (leads_keepName _ name r [])).trans
      (leads_releaseAll (s.kept.get? name).toList _ [])

theorem leads_insertIn (hvalid : s.tables.isValid r = true) (name : String) :
    s.Leads [] (s.insertIn name r) [] := by
  dsimp only [insertIn]
  split
  next => exact leads_touchSet s name []
  next habsent =>
    have hnew := ReferenceSet.references_insert r.entity (Option.not_isSome_iff_eq_none.mp habsent)
    exact (leads_retain hvalid).trans (leads_putSet hnew)

/-- Moving a reference from the hand into a set uses it up, whether the set keeps it or not. -/
theorem leads_moveIn (s : ReferenceStore) (name : String) (r : Reference)
    (hand : List Reference) : s.Leads (r :: hand) (s.moveIn name r) hand := by
  dsimp only [moveIn]
  split
  next => exact leads_release s hand r
  next habsent =>
    have hnew := ReferenceSet.references_insert r.entity (Option.not_isSome_iff_eq_none.mp habsent)
    exact leads_putSet ((hnew.append_left hand).trans List.perm_middle)

theorem leads_moveAllIn (l : List Reference) (s : ReferenceStore) (name : String) :
    s.Leads l (l.foldl (moveIn · name) s) [] := by
  induction l generalizing s with
  | nil => exact .refl s []
  | cons r l ih => exact (leads_moveIn s name r l).trans (ih _)

theorem leads_obtain {e : EntityType} {keep : Option String}
    {x : Except HandleError (Handle × HandleTables)}
    (hx : ∀ y, x = .ok y → s.Leads [] { s with tables := y.2 } [] ∧ y.2.isValid ⟨e, y.1⟩ = true) :
    s.Leads [] (s.obtain e keep x).2 [] := by
  cases x with
  | error err => exact .refl s []
  | ok y =>
    obtain ⟨hissued, hvalid⟩ := hx y rfl
    exact hissued.trans (leads_keep hvalid keep)

theorem leads_setMove (s : ReferenceStore) (set target : String) :
    s.Leads [] (s.step (.setMove set target)).2 [] := by
  have hdrained : s.Leads [] (s.putSet set .empty) (s.setNamed set).references :=
    leads_putSet (.of_eq (List.append_nil _))
  exact (hdrained.trans (leads_touchSet _ target _)).trans (leads_moveAllIn _ _ target)

theorem leads_setCopy (hheld : s.Held []) (set target : String) :
    s.Leads [] (s.step (.setCopy set target)).2 [] := by
  have hvalid : ∀ r ∈ (s.setNamed set).references, s.tables.isValid r = true :=
    fun r hr => hheld.isValid (mem_live_of_set hr)
  let retained : ReferenceStore :=
    { s with tables := s.tables.retainAll (s.setNamed set).references }
  have hretained : s.Leads [] retained ((s.setNamed set).references ++ []) :=
    leads_retainAll _ hvalid
  -- What the target held before is in hand while it holds the copy, and is given back last.
  have hcopied : Leads (retained.touchSet set) ((s.setNamed set).references ++ [])
      ((retained.touchSet set).putSet target (s.setNamed set))
      ((s.setNamed target).references ++ []) := by
    refine leads_putSet ?_
    rw [setNamed_touchSet, List.append_nil, List.append_nil]
    exact List.perm_append_comm
  exact ((hretained.trans (leads_touchSet _ set _)).trans hcopied).trans
    (leads_releaseAll (s.setNamed target).references _ [])

/-- What a request, a collection or a move of references is to the balance: nothing. -/
theorem leads_step (hheld : s.Held []) (op : Operation) : s.Leads [] (s.step op).2 [] := by
  cases op with
  | ensure entity id keep =>
    refine leads_obtain fun y hy => ?_
    have hissues := HandleTables.issues_of_ensure hy
    exact ⟨leads_issues hissues, hissues.isValid hheld.coherent.sound⟩
  | intern entity id keep =>
    refine leads_obtain fun y hy => ?_
    have hissues := HandleTables.issues_of_intern hy
    exact ⟨leads_issues hissues, hissues.isValid hheld.coherent.sound⟩
  | lookup entity id keep =>
    simp only [step]
    cases ht : s.tables.get entity with
    | error err => exact .refl s []
    | ok t =>
      rw [HandleTables.get_eq_ok] at ht
      dsimp only
      cases hh : t.lookup id with
      | none => exact .refl s []
      | some h =>
        obtain ⟨canonical, -, hid⟩ := (hheld.coherent entity t ht).lookup_iff.mp hh
        have hnamed : s.tables.inspect ⟨entity, h⟩ = some canonical :=
          HandleTables.inspect_eq_some.mpr ⟨t, ht, hid⟩
        exact leads_keep (HandleTables.isValid_iff.mpr ⟨canonical, hnamed⟩) keep
  | hold entity h keep =>
    refine leads_obtain fun y hy => ?_
    obtain ⟨h', hhold, rfl⟩ := Except.map_eq_ok.mp hy
    obtain ⟨t, ht, hhold⟩ := Except.bind_eq_ok.mp hhold
    refine ⟨.refl s [], HandleTables.isValid_iff_table.mpr ⟨t, HandleTables.get_eq_ok.mp ht, ?_⟩⟩
    unfold HandleTable.hold at hhold
    split at hhold
    · cases hhold
      assumption
    · cases hhold
  | collect entity =>
    simp only [step]
    cases s.tables.get entity with
    | error err => exact .refl s []
    | ok t => exact leads_tidied (s.tables.tidied_collectIn entity)
  | collectAll => exact leads_tidied s.tables.tidied_collect
  | duplicate source keep =>
    simp only [step]
    cases hkept : s.kept.get? source with
    | none => exact .refl s []
    | some r =>
      exact leads_keep (hheld.isValid (mem_live_of_kept hkept)) keep
  | drop name =>
    exact (leads_dropName s name []).trans (leads_releaseAll (s.kept.get? name).toList _ [])
  | setInsert set source =>
    simp only [step]
    cases hkept : s.kept.get? source with
    | none => exact .refl s []
    | some r =>
      exact leads_insertIn (hheld.isValid (mem_live_of_kept hkept)) set
  | setRemove set h =>
    simp only [step]
    cases hin : (s.setNamed set).get? h with
    | none => exact leads_touchSet s set []
    | some entity =>
      have htaken : s.Leads [] (s.putSet set (SortedMap.erase (s.setNamed set) h)) [⟨entity, h⟩] :=
        leads_putSet (ReferenceSet.references_erase hin).symm
      exact htaken.trans (leads_release _ [] ⟨entity, h⟩)
  | setGet set h => exact leads_touchSet s set []
  | setContains set h => exact leads_touchSet s set []
  | setDrop set =>
    have hdropped := leads_dropSet s set []
    exact hdropped.trans (leads_releaseAll (s.setNamed set).references _ [])
  | setMove set target => exact leads_setMove s set target
  | setCopy set target => exact leads_setCopy hheld set target

theorem leads_run (hheld : s.Held []) (ops : List Operation) : s.Leads [] (s.run ops) [] := by
  induction ops generalizing s with
  | nil => exact .refl s []
  | cons op ops ih =>
    have hstep := leads_step hheld op
    exact hstep.trans (ih (hstep hheld).1)

theorem held_ofTables {tables : HandleTables} (hinitial : tables.Initial) :
    (ofTables tables).Held [] where
  coherent e t ht := (hinitial e t ht).coherent
  balanced := hinitial.fresh.counts.balanced

end ReferenceStore

end Telepathy

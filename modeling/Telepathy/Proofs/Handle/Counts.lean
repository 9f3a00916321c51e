import Telepathy.Handle.Tables
import Telepathy.Proofs.Handle.Coherence

set_option autoImplicit false

/-!
# What the tables of a connection count

Facts about single tables carry over to the tables of all entity types. If tables are sound and
count exactly the references that somebody holds, each as often as it is held, then whoever takes a
reference on a handle in use, gives back one that was held, has a handle issued or reclaims those
without references leaves them so. What is held is in use, whatever is reclaimed.
-/

namespace Telepathy

namespace HandleTables

/-- Every table is as it was made. -/
def Initial (ts : HandleTables) : Prop := ∀ e t, ts.get? e = some t → t.Initial

/-- Tables that were just made, by whatever rules. -/
def Fresh (ts : HandleTables) : Prop := ∀ e t, ts.get? e = some t → t.Fresh

theorem Initial.fresh {ts : HandleTables} (h : ts.Initial) : ts.Fresh := fun e t ht =>
  (h e t ht).fresh

/-- Every table is coherent. -/
def Coherent (ts : HandleTables) : Prop := ∀ e t, ts.get? e = some t → t.Coherent

/-- Every table is sound. -/
def Sound (ts : HandleTables) : Prop := ∀ e t, ts.get? e = some t → t.Sound

/-- Every table is still there and became what it may become. -/
def Succeeds (ts ts' : HandleTables) : Prop :=
  ∀ e t, ts.get? e = some t → ∃ t', ts'.get? e = some t' ∧ t.Succeeds t'

variable {ts ts' ts₁ : HandleTables} {e : EntityType} {id : String} {r r' : Reference}

namespace Succeeds

theorem refl (ts : HandleTables) : ts.Succeeds ts := fun _ t ht => ⟨t, ht, .refl t⟩

theorem trans (h : ts.Succeeds ts') (h' : ts'.Succeeds ts₁) : ts.Succeeds ts₁ := by
  intro e t ht
  obtain ⟨t', ht', hsucceeds⟩ := h e t ht
  obtain ⟨t₁, ht₁, hsucceeds'⟩ := h' e t' ht'
  exact ⟨t₁, ht₁, hsucceeds.trans hsucceeds'⟩

end Succeeds

theorem Coherent.sound (hcoherent : ts.Coherent) : ts.Sound := fun e t ht =>
  (hcoherent e t ht).sound

theorem inspect_eq_some :
    ts.inspect r = some id ↔ ∃ t, ts.get? r.entity = some t ∧ t.inspect r.handle = some id :=
  Option.bind_eq_some_iff

theorem isValid_iff_table :
    ts.isValid r = true ↔ ∃ t, ts.get? r.entity = some t ∧ t.isValid r.handle = true := by
  unfold isValid
  cases ts.get? r.entity <;> simp

theorem isValid_iff : ts.isValid r = true ↔ ∃ id, ts.inspect r = some id := by
  simp only [isValid_iff_table, inspect_eq_some, HandleTable.isValid_iff]
  exact ⟨fun ⟨t, ht, id, hid⟩ => ⟨id, t, ht, hid⟩, fun ⟨id, t, ht, hid⟩ => ⟨t, ht, id, hid⟩⟩

theorem isValid_of_referenced (hpos : 0 < ts.referencesTo r) : ts.isValid r = true := by
  unfold referencesTo at hpos
  cases ht : ts.get? r.entity with
  | none =>
    rw [ht] at hpos
    exact absurd hpos (Nat.lt_irrefl 0)
  | some t =>
    rw [ht] at hpos
    exact isValid_iff_table.mpr ⟨t, ht, HandleTable.isValid_of_referenced hpos⟩

/-- A handle that named something before names the same later, or nothing. -/
theorem Sound.inspect_unchanged (hsound : ts.Sound) (hsucceeds : ts.Succeeds ts') {id' : String}
    (hid : ts.inspect r = some id) (hid' : ts'.inspect r = some id') : id' = id := by
  obtain ⟨t, ht, hnamed⟩ := inspect_eq_some.mp hid
  obtain ⟨t', ht', hsucceeds⟩ := hsucceeds _ t ht
  obtain ⟨_, hsame, hnamed'⟩ := inspect_eq_some.mp hid'
  rw [ht', Option.some.injEq] at hsame
  subst hsame
  have hstill := hsucceeds.inspect ((hsound _ t ht).issued hnamed) hnamed'
  rw [hnamed, Option.some.injEq] at hstill
  exact hstill.symm

theorem Succeeds.inspect (hsucceeds : ts.Succeeds ts') (hcoherent : ts.Coherent) {id' : String}
    (hid : ts.inspect r = some id) (hid' : ts'.inspect r = some id') : id' = id :=
  hcoherent.sound.inspect_unchanged hsucceeds hid hid'

section Modify

variable {f : HandleTable → HandleTable}

/-- What holds of every table and of the one that is changed holds of every table afterwards. -/
theorem forall_modify {P : HandleTable → Prop} (h : ∀ e t, ts.get? e = some t → P t)
    (hf : ∀ t, ts.get? e = some t → P (f t)) :
    ∀ e' t, (ts.modify e f).get? e' = some t → P t := by
  intro e' t ht
  rw [get?_modify] at ht
  by_cases he : e' = e
  · subst he
    rw [if_pos rfl] at ht
    obtain ⟨t', ht', rfl⟩ := Option.map_eq_some_iff.mp ht
    exact hf t' ht'
  · rw [if_neg he] at ht
    exact h e' t ht

theorem Coherent.modify (hcoherent : ts.Coherent)
    (hf : ∀ t, ts.get? e = some t → (f t).Coherent) : (ts.modify e f).Coherent :=
  forall_modify hcoherent hf

theorem Sound.modify (hsound : ts.Sound) (hf : ∀ t, ts.get? e = some t → (f t).Sound) :
    (ts.modify e f).Sound :=
  forall_modify hsound hf

theorem succeeds_modify (hf : ∀ t, ts.get? e = some t → t.Succeeds (f t)) :
    ts.Succeeds (ts.modify e f) := by
  intro e' t ht
  rw [get?_modify]
  by_cases he : e' = e
  · subst he
    exact ⟨f t, by rw [if_pos rfl, ht]; rfl, hf t ht⟩
  · exact ⟨t, by rw [if_neg he]; exact ht, .refl t⟩

theorem referencesTo_modify (hf : ∀ t, ts.get? e = some t →
      ∀ h, (f t).referencesTo h = t.referencesTo h) (r : Reference) :
    (ts.modify e f).referencesTo r = ts.referencesTo r := by
  unfold referencesTo
  rw [get?_modify]
  by_cases he : r.entity = e
  · subst he
    rw [if_pos rfl]
    cases ht : ts.get? r.entity with
    | none => rfl
    | some t => exact hf t ht r.handle
  · rw [if_neg he]

end Modify

theorem eq_iff_of_entity (he : r'.entity = r.entity) : r = r' ↔ r.handle = r'.handle := by
  obtain ⟨e, h⟩ := r
  obtain ⟨e', h'⟩ := r'
  cases he
  simp

theorem inspect_retain (ts : HandleTables) (r r' : Reference) :
    (ts.retain r).inspect r' = ts.inspect r' := by
  unfold inspect retain
  rw [get?_modify]
  split
  · cases ts.get? r'.entity with
    | none => rfl
    | some t => exact t.inspect_retain r.handle r'.handle
  · rfl

theorem inspect_release (ts : HandleTables) (r r' : Reference) :
    (ts.release r).inspect r' = ts.inspect r' := by
  unfold inspect release
  rw [get?_modify]
  split
  · cases ts.get? r'.entity with
    | none => rfl
    | some t => exact t.inspect_release r.handle r'.handle
  · rfl

theorem inspect_releaseAll (ts : HandleTables) (l : List Reference) (r' : Reference) :
    (ts.releaseAll l).inspect r' = ts.inspect r' := by
  induction l generalizing ts with
  | nil => rfl
  | cons r l ih => exact (ih (ts.release r)).trans (ts.inspect_release r r')

theorem isValid_retain (ts : HandleTables) (r r' : Reference) :
    (ts.retain r).isValid r' = ts.isValid r' := by
  rw [Bool.eq_iff_iff, isValid_iff, isValid_iff, inspect_retain]

theorem referencesTo_retain (hvalid : ts.isValid r = true) (r' : Reference) :
    (ts.retain r).referencesTo r' = ts.referencesTo r' + if r = r' then 1 else 0 := by
  obtain ⟨t, ht, hin⟩ := isValid_iff_table.mp hvalid
  unfold referencesTo retain
  rw [get?_modify]
  by_cases he : r'.entity = r.entity
  · simp [he, ht, HandleTable.referencesTo_retain hin, eq_iff_of_entity he]
  · rw [if_neg he, if_neg fun hr => he (congrArg _ hr.symm)]
    rfl

theorem referencesTo_release (ts : HandleTables) (r r' : Reference) :
    (ts.release r).referencesTo r' = ts.referencesTo r' - if r = r' then 1 else 0 := by
  unfold referencesTo release
  rw [get?_modify]
  by_cases he : r'.entity = r.entity
  · rw [if_pos he]
    simp only [eq_iff_of_entity he]
    cases ts.get? r'.entity with
    | none => simp
    | some t => exact t.referencesTo_release r.handle r'.handle
  · rw [if_neg he, if_neg fun hr => he (congrArg _ hr.symm)]
    rfl

/-! ### Requests for handles -/

/-- What a request for the handle of an identifier comes to when it succeeds. -/
def Issues (ts : HandleTables) (e : EntityType) (id : String) (r : Handle × HandleTables) : Prop :=
  ∃ t r', ts.get? e = some t ∧ t.Issues id r' ∧ r = (r'.1, ts.set e r'.2)

section Issues

variable {x : Handle × HandleTables}

theorem issues_of_ensure (h : ts.ensure e id = .ok x) : ts.Issues e id x := by
  obtain ⟨t, r', ht, hr', rfl⟩ := ensure_eq_ok.mp h
  exact ⟨t, r', ht, HandleTable.issues_of_ensure hr', rfl⟩

theorem get_eq_ok {t : HandleTable} : ts.get e = .ok t ↔ ts.get? e = some t := by
  unfold get
  cases ts.get? e <;> simp

theorem issues_of_intern (h : ts.intern e id = .ok x) : ts.Issues e id x := by
  obtain ⟨t, ht, h⟩ := Except.bind_eq_ok.mp h
  obtain ⟨r', hr', h⟩ := Except.bind_eq_ok.mp h
  cases h
  exact ⟨t, r', get_eq_ok.mp ht, HandleTable.issues_of_intern hr', rfl⟩

theorem Issues.coherent (hissues : ts.Issues e id x) (hcoherent : ts.Coherent) :
    x.2.Coherent := by
  obtain ⟨t, r', ht, hr', rfl⟩ := hissues
  exact hcoherent.modify fun _ _ => hr'.coherent (hcoherent e t ht)

theorem Issues.sound (hissues : ts.Issues e id x) (hsound : ts.Sound) : x.2.Sound := by
  obtain ⟨t, r', ht, hr', rfl⟩ := hissues
  exact hsound.modify fun _ _ => hr'.sound (hsound e t ht)

theorem Issues.succeeds (hissues : ts.Issues e id x) : ts.Succeeds x.2 := by
  obtain ⟨t, r', ht, hr', rfl⟩ := hissues
  refine succeeds_modify fun t' ht' => ?_
  rw [ht, Option.some.injEq] at ht'
  exact ht' ▸ hr'.succeeds

theorem Issues.referencesTo (hissues : ts.Issues e id x) (hsound : ts.Sound)
    (r : Reference) : x.2.referencesTo r = ts.referencesTo r := by
  obtain ⟨t, r', ht, hr', rfl⟩ := hissues
  refine referencesTo_modify (fun t' ht' h => ?_) r
  rw [ht, Option.some.injEq] at ht'
  exact ht' ▸ hr'.referencesTo (hsound e t ht) h

theorem Issues.inspect (hissues : ts.Issues e id x) (hsound : ts.Sound) :
    ∃ t canonical, ts.get? e = some t ∧ t.normalise id = .ok canonical ∧
      x.2.inspect ⟨e, x.1⟩ = some canonical := by
  obtain ⟨t, r', ht, hr', rfl⟩ := hissues
  obtain ⟨canonical, hcanonical, hid⟩ := hr'.inspect (hsound e t ht)
  refine ⟨t, canonical, ht, hcanonical, inspect_eq_some.mpr ⟨r'.2, ?_, hid⟩⟩
  rw [set, get?_modify, if_pos rfl, ht]
  rfl

theorem Issues.lookup (hissues : ts.Issues e id x) :
    ∃ t, x.2.get? e = some t ∧ t.lookup id = some x.1 := by
  obtain ⟨t, r', ht, hr', rfl⟩ := hissues
  refine ⟨r'.2, ?_, hr'.lookup⟩
  rw [set, get?_modify, if_pos rfl, ht]
  rfl

theorem Issues.isValid (hissues : ts.Issues e id x) (hsound : ts.Sound) :
    x.2.isValid ⟨e, x.1⟩ = true := by
  obtain ⟨-, canonical, -, -, hid⟩ := hissues.inspect hsound
  exact isValid_iff.mpr ⟨canonical, hid⟩

end Issues

/-! ### Collections -/

/-- Handles without references were reclaimed in some of the tables. -/
def Tidied (ts ts' : HandleTables) : Prop :=
  ∀ e, ts'.get? e = ts.get? e ∨ ts'.get? e = (ts.get? e).map (·.collect.2)

namespace Tidied

variable (htidied : ts.Tidied ts')

include htidied

theorem coherent (hcoherent : ts.Coherent) : ts'.Coherent := by
  intro e t' ht'
  rcases htidied e with he | he
  · exact hcoherent e t' (he ▸ ht')
  · obtain ⟨t, ht, rfl⟩ := Option.map_eq_some_iff.mp (he ▸ ht')
    exact (hcoherent e t ht).collect

theorem sound (hsound : ts.Sound) : ts'.Sound := by
  intro e t' ht'
  rcases htidied e with he | he
  · exact hsound e t' (he ▸ ht')
  · obtain ⟨t, ht, rfl⟩ := Option.map_eq_some_iff.mp (he ▸ ht')
    exact (hsound e t ht).collect

theorem succeeds : ts.Succeeds ts' := by
  intro e t ht
  rcases htidied e with he | he
  · exact ⟨t, he.trans ht, .refl t⟩
  · exact ⟨t.collect.2, by rw [he, ht]; rfl, t.succeeds_collect⟩

theorem referencesTo (r : Reference) : ts'.referencesTo r = ts.referencesTo r := by
  unfold HandleTables.referencesTo
  rcases htidied r.entity with he | he
  · rw [he]
  · rw [he]
    cases ts.get? r.entity with
    | none => rfl
    | some t => exact t.referencesTo_collect r.handle

end Tidied

theorem collectIn_of_get? {t : HandleTable} (ht : ts.get? e = some t) :
    ts.collectIn e = (t.collect.1, ts.set e t.collect.2) := by
  rw [collectIn, ht]

theorem get?_set_collect {t : HandleTable} (ht : ts.get? e = some t) (e' : EntityType) :
    (ts.set e t.collect.2).get? e' =
      if e' = e then some t.collect.2 else ts.get? e' := by
  rw [set, get?_modify]
  by_cases he : e' = e
  · subst he
    simp [ht]
  · simp [he]

theorem tidied_collectIn (ts : HandleTables) (e : EntityType) : ts.Tidied (ts.collectIn e).2 := by
  intro e'
  cases ht : ts.get? e with
  | none =>
    rw [collectIn, ht]
    exact .inl rfl
  | some t =>
    rw [collectIn_of_get? ht, get?_set_collect ht]
    by_cases he : e' = e
    · subst he
      rw [if_pos rfl, ht]
      exact .inr rfl
    · rw [if_neg he]
      exact .inl rfl

theorem tidied_collect (ts : HandleTables) : ts.Tidied ts.collect.2 := by
  intro e
  cases e <;> exact .inr rfl

/-! ### What stays in use -/

/-- Every handle in use stays in use. -/
def Keeps (ts ts' : HandleTables) : Prop := ∀ r, ts.isValid r = true → ts'.isValid r = true

namespace Keeps

theorem refl (ts : HandleTables) : ts.Keeps ts := fun _ h => h

theorem trans (h : ts.Keeps ts') (h' : ts'.Keeps ts₁) : ts.Keeps ts₁ := fun r hr => h' r (h r hr)

end Keeps

theorem keeps_retain (ts : HandleTables) (r : Reference) : ts.Keeps (ts.retain r) :=
  fun r' h => (ts.isValid_retain r r').trans h

theorem keeps_release (ts : HandleTables) (r : Reference) : ts.Keeps (ts.release r) := by
  intro r' h
  rw [isValid_iff, inspect_release]
  exact isValid_iff.mp h

theorem keeps_retainAll (ts : HandleTables) (rs : List Reference) : ts.Keeps (ts.retainAll rs) :=
  List.foldl_rel_of_step .refl .trans keeps_retain rs ts

theorem keeps_releaseAll (ts : HandleTables) (rs : List Reference) : ts.Keeps (ts.releaseAll rs) :=
  List.foldl_rel_of_step .refl .trans keeps_release rs ts

/-- To exchange references on contacts is to take some and to give others back. -/
theorem exchangeContacts_eq (ts : HandleTables) (retained released : List Handle) :
    ts.exchangeContacts retained released =
      (ts.retainAll (retained.map (Reference.mk .contact))).releaseAll
        (released.map (Reference.mk .contact)) := by
  have hretained : ∀ (l : List Handle) (ts : HandleTables),
      ts.retainAll (l.map (Reference.mk .contact)) =
        { ts with contact := l.foldl HandleTable.retain ts.contact } := by
    intro l
    induction l with
    | nil => exact fun _ => rfl
    | cons h l ih => exact fun ts => ih (ts.retain ⟨.contact, h⟩)
  have hreleased : ∀ (l : List Handle) (ts : HandleTables),
      ts.releaseAll (l.map (Reference.mk .contact)) =
        { ts with contact := l.foldl HandleTable.release ts.contact } := by
    intro l
    induction l with
    | nil => exact fun _ => rfl
    | cons h l ih => exact fun ts => ih (ts.release ⟨.contact, h⟩)
  rw [hretained, hreleased]
  rfl

theorem keeps_exchangeContacts (ts : HandleTables) (retained released : List Handle) :
    ts.Keeps (ts.exchangeContacts retained released) := by
  rw [exchangeContacts_eq]
  exact (ts.keeps_retainAll _).trans (keeps_releaseAll _ _)

/-- Issuing a handle takes none from anybody. -/
theorem Issues.keeps {x : Handle × HandleTables} (hissues : ts.Issues e id x) : ts.Keeps x.2 := by
  obtain ⟨t, r', ht, ⟨canonical, -, hr'⟩, rfl⟩ := hissues
  intro r h
  obtain ⟨t₀, ht₀, hin⟩ := isValid_iff_table.mp h
  rw [isValid_iff_table, set, get?_modify]
  by_cases he : r.entity = e
  · subst he
    rw [ht, Option.some.injEq] at ht₀
    subst ht₀
    refine ⟨r'.2, by rw [if_pos rfl, ht]; rfl, ?_⟩
    obtain ⟨known, -, rfl⟩ | ⟨-, rfl⟩ := hr'
    · exact hin
    · rw [HandleTable.isValid_iff] at hin ⊢
      rw [HandleTable.inspect_allocate]
      split
      · exact ⟨canonical, rfl⟩
      · exact hin
  · exact ⟨t₀, by rw [if_neg he]; exact ht₀, hin⟩

/-! ### What is counted -/

/-- The tables are sound, and count exactly the references of a list. -/
structure Counts (ts : HandleTables) (held : List Reference) : Prop where
  sound : ts.Sound
  balanced : ∀ r, ts.referencesTo r = held.count r

namespace Counts

variable {held held' : List Reference}

/-- What is held is in use. -/
theorem isValid (h : ts.Counts held) (hr : r ∈ held) : ts.isValid r = true := by
  refine isValid_of_referenced ?_
  rw [h.balanced]
  exact List.count_pos_iff.mpr hr

theorem of_perm (h : ts.Counts held) (hperm : held.Perm held') : ts.Counts held' :=
  ⟨h.sound, fun r => (h.balanced r).trans (hperm.count_eq r)⟩

theorem retain (h : ts.Counts held) (hvalid : ts.isValid r = true) :
    (ts.retain r).Counts (r :: held) := by
  refine ⟨h.sound.modify fun t ht => (h.sound _ t ht).retain _, fun r' => ?_⟩
  rw [referencesTo_retain hvalid, h.balanced]
  simp [List.count_cons]

theorem release (h : ts.Counts (r :: held)) : (ts.release r).Counts held := by
  refine ⟨h.sound.modify fun t ht => (h.sound _ t ht).release _, fun r' => ?_⟩
  rw [referencesTo_release, h.balanced]
  simp [List.count_cons]

theorem retainAll {l : List Reference} (h : ts.Counts held)
    (hvalid : ∀ r ∈ l, ts.isValid r = true) : (ts.retainAll l).Counts (l ++ held) := by
  induction l generalizing ts held with
  | nil => exact h
  | cons r l ih =>
    have hrest : ∀ r' ∈ l, (ts.retain r).isValid r' = true := fun r' hr' => by
      rw [isValid_retain]
      exact hvalid r' (.tail _ hr')
    exact (ih (h.retain (hvalid r List.mem_cons_self)) hrest).of_perm List.perm_middle

theorem releaseAll {l : List Reference} (h : ts.Counts (l ++ held)) :
    (ts.releaseAll l).Counts held := by
  induction l generalizing ts with
  | nil => exact h
  | cons r l ih => exact ih h.release

/-- References are taken first, and then others are given back. -/
theorem exchange {taken given : List Reference} (h : ts.Counts held)
    (hvalid : ∀ r ∈ taken, ts.isValid r = true)
    (hperm : (taken ++ held).Perm (given ++ held')) :
    ((ts.retainAll taken).releaseAll given).Counts held' :=
  ((h.retainAll hvalid).of_perm hperm).releaseAll

/-- The same for references on contacts. -/
theorem exchangeContacts {taken given : List Handle} (h : ts.Counts held)
    (hvalid : ∀ h ∈ taken, ts.isValid ⟨.contact, h⟩ = true)
    (hperm : (taken.map (Reference.mk .contact) ++ held).Perm
      (given.map (Reference.mk .contact) ++ held')) :
    (ts.exchangeContacts taken given).Counts held' := by
  rw [exchangeContacts_eq]
  refine h.exchange (fun r hr => ?_) hperm
  obtain ⟨h, hh, rfl⟩ := List.mem_map.mp hr
  exact hvalid h hh

theorem issues {x : Handle × HandleTables} (h : ts.Counts held) (hissues : ts.Issues e id x) :
    x.2.Counts held :=
  ⟨hissues.sound h.sound, fun r => (hissues.referencesTo h.sound r).trans (h.balanced r)⟩

theorem tidied (h : ts.Counts held) (htidied : ts.Tidied ts') : ts'.Counts held :=
  ⟨htidied.sound h.sound, fun r => (htidied.referencesTo r).trans (h.balanced r)⟩

end Counts

/-- Nobody holds anything in tables that were just made. -/
theorem Fresh.counts (h : ts.Fresh) : ts.Counts [] := by
  refine ⟨fun e t ht => (h e t ht).sound, fun r => ?_⟩
  show ts.referencesTo r = 0
  unfold referencesTo
  cases ht : ts.get? r.entity with
  | none => rfl
  | some t => exact (h _ t ht).referencesTo r.handle

end HandleTables

end Telepathy

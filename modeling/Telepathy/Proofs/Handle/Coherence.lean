import Telepathy.Proofs.Handle.Growth
import Telepathy.Proofs.Sorted.Entries

set_option autoImplicit false

/-!
# Coherent tables

A table keeps its handles twice, by number and by identifier. It is coherent while the two say the
same, and while every number it issued is below the one it issues next. Counting references is
nothing to either, issuing adds the same handle to both, and collecting takes the same handles from
both. Since numbers only grow, what a table calls a handle is what it always called it.

A table is coherent only if its canonical forms are canonical. Where that does not matter it is
enough that the table is sound: the handle of an identifier is in use under that identifier.
-/

namespace Telepathy

namespace HandleTable

/-! ## Tables to start from -/

/-- A canonical form is its own canonical form. -/
def Idempotent (normalise : String → Except String String) : Prop :=
  ∀ id canonical, normalise id = .ok canonical → normalise canonical = .ok canonical

/-- A table as it is made, before anything was asked of it. -/
inductive Initial : HandleTable → Prop
  | onDemand (entity : EntityType) : Initial (onDemand entity)
  | withNormaliser (entity : EntityType) {normalise : String → Except String String}
      (idempotent : Idempotent normalise) : Initial (withNormaliser entity normalise)
  | requiringLookup (entity : EntityType) : Initial (requiringLookup entity)
  | fixed (entity : EntityType) {ids : List String} (distinct : ids.Nodup)
      (named : "" ∉ ids) : Initial (fixed entity ids)

/-- A table as it is made, whatever its normaliser and whatever identifiers it knows. -/
inductive Fresh : HandleTable → Prop
  | withNormaliser (entity : EntityType) (normalise : String → Except String String) :
      Fresh (withNormaliser entity normalise)
  | requiringLookup (entity : EntityType) : Fresh (requiringLookup entity)
  | fixed (entity : EntityType) (ids : List String) : Fresh (fixed entity ids)

/-- Whatever the index of a table names is in use under that name. -/
structure Sound (t : HandleTable) : Prop where
  indexed : ∀ {id h}, t.index.get? id = some h → t.inspect h = some id
  issued : ∀ {h id}, t.inspect h = some id → h.number < t.next.number

/-- The index and the entries of a table say the same. -/
structure Coherent (t : HandleTable) : Prop where
  index : ∀ id h, t.index.get? id = some h ↔ t.inspect h = some id
  issued : ∀ {h id}, t.inspect h = some id → h.number < t.next.number
  canonical : ∀ {h id}, t.inspect h = some id → t.normalise id = .ok id
  idempotent : Idempotent t.normalise

/-- What a table may become: it keeps its rules, and the numbers it issued keep their meaning or
lose it. -/
structure Succeeds (t t' : HandleTable) : Prop where
  allocation : t'.allocation = t.allocation
  normalise : t'.normalise = t.normalise
  next : t.next.number ≤ t'.next.number
  inspect : ∀ {h id}, h.number < t.next.number → t'.inspect h = some id → t.inspect h = some id

variable {t t' t₁ : HandleTable} {h h' : Handle} {id canonical : String}

namespace Succeeds

theorem refl (t : HandleTable) : t.Succeeds t := ⟨rfl, rfl, Nat.le_refl _, fun _ h => h⟩

theorem trans (h : t.Succeeds t') (h' : t'.Succeeds t₁) : t.Succeeds t₁ where
  allocation := h'.allocation.trans h.allocation
  normalise := h'.normalise.trans h.normalise
  next := Nat.le_trans h.next h'.next
  inspect hlt hid := h.inspect hlt (h'.inspect (Nat.lt_of_lt_of_le hlt h.next) hid)

end Succeeds

theorem isValid_iff : t.isValid h = true ↔ ∃ id, t.inspect h = some id := by
  simp only [isValid, SortedMap.contains, inspect, Option.isSome_iff_exists, Option.map_eq_some_iff]
  constructor
  · rintro ⟨e, he⟩
    exact ⟨e.id, e, he, rfl⟩
  · rintro ⟨_, e, he, -⟩
    exact ⟨e, he⟩

/-- A handle that is referenced is in use. -/
theorem isValid_of_referenced (hpos : 0 < t.referencesTo h) : t.isValid h = true := by
  unfold referencesTo at hpos
  unfold isValid SortedMap.contains
  cases hget : t.entries.get? h with
  | none =>
    rw [hget] at hpos
    exact absurd hpos (Nat.lt_irrefl 0)
  | some e => rfl

theorem Coherent.sound (hcoherent : t.Coherent) : t.Sound :=
  ⟨fun {id h} => (hcoherent.index id h).mp, hcoherent.issued⟩

/-- In a coherent table looking an identifier up and inspecting a handle are inverse. -/
theorem Coherent.lookup_iff (hcoherent : t.Coherent) :
    t.lookup id = some h ↔
      ∃ canonical, t.normalise id = .ok canonical ∧ t.inspect h = some canonical := by
  unfold lookup
  cases t.normalise id with
  | error e => simp
  | ok canonical => simp [hcoherent.index]

/-- A coherent table gives no two handles to one identifier. -/
theorem Coherent.inspect_injective (hcoherent : t.Coherent) (hid : t.inspect h = some id)
    (hid' : t.inspect h' = some id) : h = h' := by
  have hindex := (hcoherent.index id h).mpr hid
  rw [(hcoherent.index id h').mpr hid', Option.some.injEq] at hindex
  exact hindex.symm

/-! ## Counting -/

section Counting

@[simp] theorem inspect_retain (t : HandleTable) (h h' : Handle) :
    (t.retain h).inspect h' = t.inspect h' := by
  simp only [inspect, retain, SortedMap.get?_modify]
  split <;> simp [Function.comp_def]

@[simp] theorem inspect_release (t : HandleTable) (h h' : Handle) :
    (t.release h).inspect h' = t.inspect h' := by
  simp only [inspect, release, SortedMap.get?_modify]
  split <;> simp [Function.comp_def]

theorem referencesTo_retain (hvalid : t.isValid h = true) (h' : Handle) :
    (t.retain h).referencesTo h' = t.referencesTo h' + if h = h' then 1 else 0 := by
  obtain ⟨e, he⟩ := Option.isSome_iff_exists.mp hvalid
  simp only [referencesTo, retain, SortedMap.get?_modify]
  by_cases hh : h = h'
  · subst hh
    simp [he]
  · simp [hh, Ne.symm hh]

theorem referencesTo_release (t : HandleTable) (h h' : Handle) :
    (t.release h).referencesTo h' = t.referencesTo h' - if h = h' then 1 else 0 := by
  simp only [referencesTo, release, SortedMap.get?_modify]
  by_cases hh : h = h'
  · subst hh
    cases t.entries.get? h <;> simp
  · simp [hh, Ne.symm hh]

theorem inspect_foldl_retain (t : HandleTable) (l : List Handle) (h : Handle) :
    (l.foldl retain t).inspect h = t.inspect h := by
  induction l generalizing t with
  | nil => rfl
  | cons a l ih => rw [List.foldl_cons, ih, inspect_retain]

theorem inspect_exchange (t : HandleTable) (retained released : List Handle) (h : Handle) :
    (t.exchange retained released).inspect h = t.inspect h := by
  have hreleased : ∀ (l : List Handle) (t : HandleTable), (l.foldl release t).inspect h =
      t.inspect h := by
    intro l
    induction l with
    | nil => exact fun _ => rfl
    | cons a l ih => exact fun t => by rw [List.foldl_cons, ih, inspect_release]
  rw [exchange, hreleased, inspect_foldl_retain]

theorem referencesTo_foldl_retain {l : List Handle} (hvalid : ∀ h ∈ l, t.isValid h = true)
    (h : Handle) : (l.foldl retain t).referencesTo h = t.referencesTo h + l.count h := by
  induction l generalizing t with
  | nil => rfl
  | cons a l ih =>
    obtain ⟨ha, hl⟩ := List.forall_mem_cons.mp hvalid
    have hstill : ∀ b ∈ l, (t.retain a).isValid b = true := fun b hb => by
      rw [isValid_iff, inspect_retain, ← isValid_iff]
      exact hl b hb
    rw [List.foldl_cons, ih hstill, referencesTo_retain ha, List.count_cons]
    simp only [beq_iff_eq]
    omega

theorem referencesTo_foldl_release (t : HandleTable) (l : List Handle) (h : Handle) :
    (l.foldl release t).referencesTo h = t.referencesTo h - l.count h := by
  induction l generalizing t with
  | nil => rfl
  | cons a l ih =>
    rw [List.foldl_cons, ih, referencesTo_release, List.count_cons]
    simp only [beq_iff_eq]
    omega

theorem referencesTo_exchange {retained : List Handle}
    (hvalid : ∀ h ∈ retained, t.isValid h = true) (released : List Handle) (h : Handle) :
    (t.exchange retained released).referencesTo h =
      t.referencesTo h + retained.count h - released.count h := by
  rw [exchange, referencesTo_foldl_release, referencesTo_foldl_retain hvalid]

/-- A table that differs in its counts only is as sound as before. -/
theorem Sound.of_inspect (hsound : t.Sound) (hindex : t'.index = t.index) (hnext : t'.next = t.next)
    (hinspect : ∀ h, t'.inspect h = t.inspect h) : t'.Sound where
  indexed hget := by
    rw [hindex] at hget
    rw [hinspect]
    exact hsound.indexed hget
  issued hid := by
    rw [hinspect] at hid
    exact hnext ▸ hsound.issued hid

/-- A table that differs in its counts only is as coherent as before. -/
theorem Coherent.of_inspect (hcoherent : t.Coherent) (hindex : t'.index = t.index)
    (hnext : t'.next = t.next) (hnormalise : t'.normalise = t.normalise)
    (hinspect : ∀ h, t'.inspect h = t.inspect h) : t'.Coherent where
  index id h := by rw [hindex, hinspect, hcoherent.index]
  issued hid := by
    rw [hinspect] at hid
    exact hnext ▸ hcoherent.issued hid
  canonical hid := by
    rw [hinspect] at hid
    exact hnormalise ▸ hcoherent.canonical hid
  idempotent := hnormalise ▸ hcoherent.idempotent

theorem Sound.retain (hsound : t.Sound) (h : Handle) : (t.retain h).Sound :=
  hsound.of_inspect rfl rfl (t.inspect_retain h)

theorem Sound.release (hsound : t.Sound) (h : Handle) : (t.release h).Sound :=
  hsound.of_inspect rfl rfl (t.inspect_release h)

theorem Coherent.retain (hcoherent : t.Coherent) (h : Handle) : (t.retain h).Coherent :=
  hcoherent.of_inspect rfl rfl rfl (t.inspect_retain h)

theorem Coherent.release (hcoherent : t.Coherent) (h : Handle) : (t.release h).Coherent :=
  hcoherent.of_inspect rfl rfl rfl (t.inspect_release h)

theorem succeeds_retain (t : HandleTable) (h : Handle) : t.Succeeds (t.retain h) :=
  ⟨rfl, rfl, Nat.le_refl _, fun _ hid => by rwa [inspect_retain] at hid⟩

theorem succeeds_release (t : HandleTable) (h : Handle) : t.Succeeds (t.release h) :=
  ⟨rfl, rfl, Nat.le_refl _, fun _ hid => by rwa [inspect_release] at hid⟩

end Counting

/-! ## Issuing -/

section Issuing

theorem inspect_allocate (t : HandleTable) (id : String) (h : Handle) :
    (t.allocate id).inspect h = if h = t.next then some id else t.inspect h := by
  simp only [inspect, allocate, SortedMap.get?_insert]
  split <;> rfl

theorem number_next (h : Handle) : h.next.number = h.number + 1 := rfl

theorem next_allocate (t : HandleTable) (id : String) : (t.allocate id).next = t.next.next := rfl

/-- The number issued next names nothing yet. -/
theorem Sound.inspect_next (hsound : t.Sound) : t.inspect t.next = none := by
  cases hid : t.inspect t.next with
  | none => rfl
  | some id => exact absurd (hsound.issued hid) (Nat.lt_irrefl _)

theorem Sound.allocate (hsound : t.Sound) (id : String) : (t.allocate id).Sound where
  indexed {id' h} hget := by
    rw [HandleTable.allocate, SortedMap.get?_insert] at hget
    rw [inspect_allocate]
    by_cases hid : id' = id
    · rw [if_pos hid, Option.some.injEq] at hget
      rw [if_pos hget.symm, hid]
    · rw [if_neg hid] at hget
      have hnamed := hsound.indexed hget
      have hne : h ≠ t.next := fun hh => by
        rw [hh, hsound.inspect_next] at hnamed
        cases hnamed
      rw [if_neg hne]
      exact hnamed
  issued {h id'} hid := by
    rw [next_allocate, number_next]
    rw [inspect_allocate] at hid
    by_cases hh : h = t.next
    · rw [hh]
      exact Nat.lt_succ_self _
    · rw [if_neg hh] at hid
      exact Nat.lt_trans (hsound.issued hid) (Nat.lt_succ_self _)

theorem Coherent.allocate (hcoherent : t.Coherent) (hcanonical : t.normalise id = .ok id)
    (hnew : t.index.get? id = none) : (t.allocate id).Coherent where
  index id' h := by
    have hfresh : ∀ h, t.inspect h ≠ some id := fun h hid => by
      rw [(hcoherent.index id h).mpr hid] at hnew
      cases hnew
    rw [inspect_allocate, HandleTable.allocate, SortedMap.get?_insert]
    by_cases hid : id' = id <;> by_cases hh : h = t.next
    · simp [hid, hh]
    · rw [if_pos hid, if_neg hh, hid, Option.some.injEq]
      exact ⟨fun he => absurd he.symm hh, fun hinspect => absurd hinspect (hfresh h)⟩
    · rw [if_neg hid, if_pos hh, Option.some.injEq, hcoherent.index, hh,
        hcoherent.sound.inspect_next]
      exact ⟨fun he => absurd he (Option.some_ne_none _).symm, fun he => absurd he.symm hid⟩
    · rw [if_neg hid, if_neg hh, hcoherent.index]
  issued := (hcoherent.sound.allocate id).issued
  canonical {h id'} hid := by
    rw [inspect_allocate] at hid
    by_cases hh : h = t.next
    · rw [if_pos hh, Option.some.injEq] at hid
      exact hid ▸ hcanonical
    · rw [if_neg hh] at hid
      exact hcoherent.canonical hid
  idempotent := hcoherent.idempotent

theorem succeeds_allocate (t : HandleTable) (id : String) : t.Succeeds (t.allocate id) where
  allocation := rfl
  normalise := rfl
  next := Nat.le_succ _
  inspect {h _} hlt hid := by
    have hh : h ≠ t.next := fun hh => absurd hlt (hh ▸ Nat.lt_irrefl _)
    rwa [inspect_allocate, if_neg hh] at hid

/-- A new handle has no references, as it had before it was issued. -/
theorem Sound.referencesTo_allocate (hsound : t.Sound) (id : String) (h : Handle) :
    (t.allocate id).referencesTo h = t.referencesTo h := by
  simp only [HandleTable.referencesTo, HandleTable.allocate, SortedMap.get?_insert]
  by_cases hh : h = t.next
  · have hnone : t.entries.get? t.next = none := Option.map_eq_none_iff.mp hsound.inspect_next
    simp [hh, hnone]
  · simp [hh]

/-- What a request for the handle of an identifier comes to when it succeeds: the handle that is
there, or the next one. -/
def Issues (t : HandleTable) (id : String) (r : Handle × HandleTable) : Prop :=
  ∃ canonical, t.normalise id = .ok canonical ∧
    ((∃ h, t.index.get? canonical = some h ∧ r = (h, t)) ∨
      t.index.get? canonical = none ∧ r = (t.next, t.allocate canonical))

theorem issues_of_ensure {r : Handle × HandleTable} (h : t.ensure id = .ok r) : t.Issues id r := by
  obtain ⟨canonical, hcanonical, ⟨known, hknown, rfl⟩ | ⟨hnew, -, rfl⟩⟩ := ensure_eq_ok.mp h
  · exact ⟨canonical, hcanonical, .inl ⟨known, hknown, rfl⟩⟩
  · exact ⟨canonical, hcanonical, .inr ⟨hnew, rfl⟩⟩

theorem issues_of_intern {r : Handle × HandleTable} (h : t.intern id = .ok r) : t.Issues id r := by
  unfold intern normalised at h
  obtain ⟨canonical, hcanonical, h⟩ := Except.bind_eq_ok.mp h
  refine ⟨canonical, Except.mapError_eq_ok.mp hcanonical, ?_⟩
  cases hknown : t.index.get? canonical with
  | some known =>
    rw [hknown] at h
    cases h
    exact .inl ⟨known, rfl, rfl⟩
  | none =>
    rw [hknown] at h
    cases hallocation : t.allocation <;> rw [hallocation] at h <;> cases h <;>
      exact .inr ⟨rfl, rfl⟩

section Issues

variable {r : Handle × HandleTable}

theorem Issues.coherent (hissues : t.Issues id r) (hcoherent : t.Coherent) : r.2.Coherent := by
  obtain ⟨canonical, hcanonical, ⟨known, -, rfl⟩ | ⟨hnew, rfl⟩⟩ := hissues
  · exact hcoherent
  · exact hcoherent.allocate (hcoherent.idempotent id canonical hcanonical) hnew

theorem Issues.sound (hissues : t.Issues id r) (hsound : t.Sound) : r.2.Sound := by
  obtain ⟨canonical, -, ⟨known, -, rfl⟩ | ⟨-, rfl⟩⟩ := hissues
  · exact hsound
  · exact hsound.allocate canonical

theorem Issues.succeeds (hissues : t.Issues id r) : t.Succeeds r.2 := by
  obtain ⟨canonical, -, ⟨known, -, rfl⟩ | ⟨-, rfl⟩⟩ := hissues
  · exact .refl t
  · exact succeeds_allocate t canonical

theorem Issues.referencesTo (hissues : t.Issues id r) (hsound : t.Sound) (h : Handle) :
    r.2.referencesTo h = t.referencesTo h := by
  obtain ⟨canonical, -, ⟨known, -, rfl⟩ | ⟨-, rfl⟩⟩ := hissues
  · rfl
  · exact hsound.referencesTo_allocate canonical h

/-- The handle that is given names the canonical form of what was asked for. -/
theorem Issues.inspect (hissues : t.Issues id r) (hsound : t.Sound) :
    ∃ canonical, t.normalise id = .ok canonical ∧ r.2.inspect r.1 = some canonical := by
  obtain ⟨canonical, hcanonical, ⟨known, hknown, rfl⟩ | ⟨-, rfl⟩⟩ := hissues
  · exact ⟨canonical, hcanonical, hsound.indexed hknown⟩
  · exact ⟨canonical, hcanonical, by rw [inspect_allocate, if_pos rfl]⟩

/-- The handle that is given is found under what was asked for. -/
theorem Issues.lookup (hissues : t.Issues id r) : r.2.lookup id = some r.1 := by
  obtain ⟨canonical, hcanonical, ⟨known, hknown, rfl⟩ | ⟨-, rfl⟩⟩ := hissues
  · simp [HandleTable.lookup, hcanonical, hknown]
  · simp [HandleTable.lookup, allocate, hcanonical]

end Issues

end Issuing

/-! ## Collecting -/

section Collecting

/-- A handle outlives a collection if the table is fixed or somebody holds a reference. -/
theorem inspect_collect (t : HandleTable) (h : Handle) :
    t.collect.2.inspect h =
      if t.allocation = .fixed ∨ 0 < t.referencesTo h then t.inspect h else none := by
  unfold collect inspect referencesTo
  rw [SortedMap.get?_filter]
  cases hget : t.entries.get? h with
  | none => simp
  | some e =>
    rw [Option.filter_some]
    by_cases hfixed : t.allocation = .fixed
    · simp [reclaimable, hfixed]
    · by_cases hheld : e.references = 0
      · simp [reclaimable, hfixed, hheld]
      · simp [reclaimable, hheld, Nat.pos_of_ne_zero hheld]

/-- A collection changes no count, since what goes is not counted. -/
theorem referencesTo_collect (t : HandleTable) (h : Handle) :
    t.collect.2.referencesTo h = t.referencesTo h := by
  simp only [collect, referencesTo, SortedMap.get?_filter]
  cases t.entries.get? h with
  | none => rfl
  | some e =>
    by_cases hgoes : t.reclaimable e = true
    · have hzero : e.references = 0 := by
        simp only [reclaimable, Bool.and_eq_true, beq_iff_eq] at hgoes
        exact hgoes.2
      simp [Option.filter_some, hgoes, hzero]
    · simp [Option.filter_some, hgoes]

/-- The index loses the identifiers of the handles that go, and no other. -/
theorem index_collect (t : HandleTable) :
    t.collect.2.index.get? id = some h ↔ t.index.get? id = some h ∧
      ¬∃ h e, t.entries.get? h = some e ∧ t.reclaimable e = true ∧ e.id = id := by
  have hgone : id ∈ (t.entries.filter fun _ e => t.reclaimable e).values.map (·.id) ↔
      ∃ h e, t.entries.get? h = some e ∧ t.reclaimable e = true ∧ e.id = id := by
    simp only [List.mem_map, SortedMap.mem_values, SortedMap.get?_filter,
      Option.filter_eq_some_iff]
    constructor
    · rintro ⟨e, ⟨h, he, hgoes⟩, hid⟩
      exact ⟨h, e, he, hgoes, hid⟩
    · rintro ⟨h, e, he, hgoes, hid⟩
      exact ⟨e, ⟨h, he, hgoes⟩, hid⟩
  rw [← hgone, HandleTable.collect, SortedMap.get?_foldl_erase]
  split
  next h => simp [h]
  next h => simp [h]

/-- What stays in use after a collection. -/
theorem entry_collect (t : HandleTable) : t.collect.2.inspect h = some id ↔
    ∃ e, t.entries.get? h = some e ∧ t.reclaimable e = false ∧ e.id = id := by
  simp only [collect, inspect, SortedMap.get?_filter, Option.map_eq_some_iff,
    Option.filter_eq_some_iff, Bool.not_eq_true', and_assoc]

/-- A name in the index outlives a collection only if its handle does. -/
theorem Sound.index_collect (hsound : t.Sound) (h' : t.collect.2.index.get? id = some h) :
    t.collect.2.inspect h = some id := by
  obtain ⟨hget, hnone⟩ := t.index_collect.mp h'
  obtain ⟨e, he, hid⟩ := Option.map_eq_some_iff.mp (hsound.indexed hget)
  exact t.entry_collect.mpr
    ⟨e, he, Bool.eq_false_iff.mpr fun hgoes => hnone ⟨h, e, he, hgoes, hid⟩, hid⟩

theorem Coherent.index_collect (hcoherent : t.Coherent) :
    t.collect.2.index.get? id = some h ↔ t.collect.2.inspect h = some id := by
  refine ⟨hcoherent.sound.index_collect, fun hid => ?_⟩
  obtain ⟨e, he, hstays, hid⟩ := t.entry_collect.mp hid
  have hnamed : t.inspect h = some id := Option.map_eq_some_iff.mpr ⟨e, he, hid⟩
  refine t.index_collect.mpr ⟨(hcoherent.index id h).mpr hnamed, ?_⟩
  -- Whoever else had this identifier would be the same handle, and that one stays.
  rintro ⟨h', e', he', hgoes, hid'⟩
  obtain rfl := hcoherent.inspect_injective hnamed (Option.map_eq_some_iff.mpr ⟨e', he', hid'⟩)
  rw [he, Option.some.injEq] at he'
  rw [← he', hstays] at hgoes
  cases hgoes

theorem succeeds_collect (t : HandleTable) : t.Succeeds t.collect.2 where
  allocation := rfl
  normalise := rfl
  next := Nat.le_refl _
  inspect _ hid := by
    rw [inspect_collect] at hid
    split at hid
    · exact hid
    · cases hid

theorem Sound.collect (hsound : t.Sound) : t.collect.2.Sound where
  indexed := hsound.index_collect
  issued hid := by
    rw [inspect_collect] at hid
    split at hid
    · exact hsound.issued hid
    · cases hid

theorem Coherent.collect (hcoherent : t.Coherent) : t.collect.2.Coherent where
  index _ _ := hcoherent.index_collect
  issued := hcoherent.sound.collect.issued
  canonical hid := by
    rw [inspect_collect] at hid
    split at hid
    · exact hcoherent.canonical hid
    · cases hid
  idempotent := hcoherent.idempotent

/-- The handles in use, ascending. -/
def handles (t : HandleTable) : List Handle := t.entries.keys

theorem mem_handles : h ∈ t.handles ↔ t.isValid h = true := SortedMap.mem_keys

/-- A collection says how many handles went. -/
theorem collect_count (t : HandleTable) :
    t.collect.1 = (t.handles.filter fun h => !t.collect.2.isValid h).length := by
  have hgone : ∀ e ∈ t.entries.toList, t.reclaimable e.2 = !t.collect.2.isValid e.1 := by
    intro e he
    have hget : t.entries.get? e.1 = some e.2 := SortedMap.get?_eq_some_iff.mpr he
    simp only [collect, isValid, SortedMap.contains, SortedMap.get?_filter, hget,
      Option.filter_some]
    cases t.reclaimable e.2 <;> rfl
  have hcount : (t.handles.filter fun h => !t.collect.2.isValid h).length =
      (t.entries.toList.filter fun e => !t.collect.2.isValid e.1).length := by
    rw [handles, SortedMap.keys, List.filter_map, List.length_map]
    rfl
  rw [hcount, ← List.filter_congr hgone]
  rfl

end Collecting

/-! ## Tables as they are made -/

theorem idempotent_verbatim : Idempotent verbatim := by
  intro id canonical h
  unfold verbatim at h
  split at h
  · cases h
  · cases h
    rw [verbatim, if_neg ‹_›]

theorem sound_withNormaliser (entity : EntityType) (normalise : String → Except String String) :
    (withNormaliser entity normalise).Sound := ⟨nofun, nofun⟩

theorem Sound.allocateAll {ids : List String} (hsound : t.Sound) :
    (ids.foldl HandleTable.allocate t).Sound := by
  induction ids generalizing t with
  | nil => exact hsound
  | cons id ids ih => exact ih (hsound.allocate id)

/-- Every table is sound as it is made. -/
theorem Fresh.sound (h : t.Fresh) : t.Sound := by
  cases h with
  | withNormaliser entity normalise => exact sound_withNormaliser entity normalise
  | requiringLookup entity =>
    exact (sound_withNormaliser entity verbatim).of_inspect rfl rfl fun _ => rfl
  | fixed entity ids =>
    have hissued : (ids.foldl HandleTable.allocate (onDemand entity)).Sound :=
      (sound_withNormaliser entity verbatim).allocateAll
    exact hissued.of_inspect rfl rfl fun _ => rfl

theorem Initial.fresh (h : t.Initial) : t.Fresh := by
  cases h with
  | onDemand entity => exact .withNormaliser entity verbatim
  | withNormaliser entity idempotent => exact .withNormaliser entity _
  | requiringLookup entity => exact .requiringLookup entity
  | fixed entity distinct named => exact .fixed entity _

theorem coherent_withNormaliser (entity : EntityType)
    {normalise : String → Except String String} (h : Idempotent normalise) :
    (withNormaliser entity normalise).Coherent where
  index _ _ := ⟨nofun, nofun⟩
  issued := nofun
  canonical := nofun
  idempotent := h

/-- Identifiers issued one after another, each for the first time. -/
theorem Coherent.allocateAll {ids : List String} (hcoherent : t.Coherent) (hdistinct : ids.Nodup)
    (hnew : ∀ id ∈ ids, t.index.get? id = none)
    (hcanonical : ∀ id ∈ ids, t.normalise id = .ok id) :
    (ids.foldl HandleTable.allocate t).Coherent := by
  induction ids generalizing t with
  | nil => exact hcoherent
  | cons id ids ih =>
    obtain ⟨hfirst, hrest⟩ := List.nodup_cons.mp hdistinct
    have hthis := hcoherent.allocate (hcanonical id List.mem_cons_self) (hnew id List.mem_cons_self)
    refine ih hthis hrest (fun id' hid' => ?_) fun id' hid' => hcanonical id' (.tail _ hid')
    have hne : id' ≠ id := fun he => hfirst (he ▸ hid')
    rw [HandleTable.allocate, SortedMap.get?_insert_ne _ _ hne]
    exact hnew id' (.tail _ hid')

theorem Initial.coherent (h : t.Initial) : t.Coherent := by
  cases h with
  | onDemand entity => exact coherent_withNormaliser entity idempotent_verbatim
  | withNormaliser entity idempotent => exact coherent_withNormaliser entity idempotent
  | requiringLookup entity =>
    exact (coherent_withNormaliser entity idempotent_verbatim).of_inspect rfl rfl rfl fun _ => rfl
  | @fixed entity ids distinct named =>
    have hids := (coherent_withNormaliser entity idempotent_verbatim).allocateAll distinct
      (fun _ _ => rfl) fun id hid => if_neg fun he : id = "" => named (he ▸ hid)
    exact hids.of_inspect rfl rfl rfl fun _ => rfl

theorem referencesTo_allocateAll {ids : List String} (hzero : ∀ h, t.referencesTo h = 0)
    (h : Handle) : (ids.foldl allocate t).referencesTo h = 0 := by
  induction ids generalizing t with
  | nil => exact hzero h
  | cons id ids ih =>
    refine ih fun h => ?_
    have hthis := hzero h
    simp only [referencesTo, allocate, SortedMap.get?_insert] at hthis ⊢
    split
    · rfl
    · exact hthis

theorem Fresh.referencesTo (hfresh : t.Fresh) (h : Handle) : t.referencesTo h = 0 := by
  cases hfresh with
  | fixed entity ids =>
    exact referencesTo_allocateAll (t := HandleTable.onDemand entity) (fun _ => rfl) h
  | _ => rfl

end HandleTable

end Telepathy

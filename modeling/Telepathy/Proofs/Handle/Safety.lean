import Telepathy.Handle.Address
import Telepathy.Proofs.Handle.Balance
import Telepathy.Proofs.Text.Blank

set_option autoImplicit false

/-!
# Handles are safe to keep

What a client may rely on when it keeps handles. A table is one to one between the identifiers it
knows and the handles in use. A reference keeps its handle in use, naming what it named when it was
issued, however often handles are collected meanwhile; handles that nobody holds are collected, all
of them and no others. And a number that outlives its handle names nothing: it is not given to
another identifier, not even when its own one is asked for again.
-/

namespace Telepathy

/-! ## Addresses as canonical forms -/

namespace HandleTable

/-- Addresses are compared by a canonical form of their own. -/
theorem idempotent_normaliseAddress : Idempotent normaliseAddress := by
  intro id canonical h
  dsimp only [normaliseAddress] at h
  split at h
  next hat =>
    obtain rfl := Except.ok.inj h
    have hstill : '@' ∈ (Text.lower (Text.trim id)).toList := by
      rw [Text.lower, String.toList_ofList]
      exact List.mem_map.mpr ⟨'@', hat, rfl⟩
    dsimp only [normaliseAddress]
    rw [Text.trim_lower, Text.trim_trim, Text.lower_lower, if_pos hstill]
  next => cases h

end HandleTable

namespace HandleTable

/-! ## One to one -/

variable {t : HandleTable}

/-- Looking identifiers up and inspecting handles are inverse to each other. -/
def OneToOne (t : HandleTable) : Prop :=
  (∀ id h, t.lookup id = some h ↔ t.isValid h = true ∧
    ∃ canonical, t.normalise id = .ok canonical ∧ t.inspect h = some canonical) ∧
  (∀ h id, t.inspect h = some id → t.lookup id = some h) ∧
  ∀ h h', t.isValid h = true → t.isValid h' = true → h ≠ h' → t.inspect h ≠ t.inspect h'

theorem Coherent.oneToOne (hcoherent : t.Coherent) : t.OneToOne := by
  refine ⟨fun id h => ?_, fun h id hid => ?_, fun h h' hvalid _ hne hsame => ?_⟩
  · rw [hcoherent.lookup_iff]
    refine ⟨fun hnamed => ⟨?_, hnamed⟩, fun hboth => hboth.2⟩
    obtain ⟨canonical, -, hid⟩ := hnamed
    exact isValid_iff.mpr ⟨canonical, hid⟩
  · exact hcoherent.lookup_iff.mpr ⟨id, hcoherent.canonical hid, hid⟩
  · obtain ⟨id, hid⟩ := isValid_iff.mp hvalid
    exact hne (hcoherent.inspect_injective hid (hsame ▸ hid))

end HandleTable

namespace ReferenceStore

/-! ## Counts and collections -/

variable {s : ReferenceStore}

/-- Every handle counts the references that are kept on it, and these keep it in use. -/
def Counted (s : ReferenceStore) : Prop :=
  (∀ r, s.tables.referencesTo r = s.live.count r) ∧ ∀ r ∈ s.live, s.tables.isValid r = true

/-- A collection in the table of `e` reclaims the handles without references, unless the table is
fixed, and says how many these were. -/
def CollectsUnreferenced (s : ReferenceStore) (e : EntityType) : Prop :=
  ∀ t, s.tables.get? e = some t →
    (s.step (.collect e)).1 = .ok (.count
      (t.handles.filter fun h => t.allocation ≠ .fixed ∧ ⟨e, h⟩ ∉ s.live).length) ∧
    (∀ r, (s.step (.collect e)).2.tables.isValid r = true ↔
      s.tables.isValid r = true ∧ (r.entity ≠ e ∨ t.allocation = .fixed ∨ r ∈ s.live)) ∧
    (s.step (.collect e)).2.live = s.live

theorem Held.counted (hheld : s.Held []) : s.Counted :=
  ⟨hheld.balanced, fun _ hlive => hheld.isValid hlive⟩

theorem Held.live_iff (hheld : s.Held []) {r : Reference} :
    r ∈ s.live ↔ 0 < s.tables.referencesTo r := by
  rw [hheld.balanced]
  exact List.count_pos_iff.symm

theorem Held.collectsUnreferenced (hheld : s.Held []) (e : EntityType) :
    s.CollectsUnreferenced e := by
  intro t ht
  have hstep : s.step (.collect e) =
      (.ok (.count t.collect.1), { s with tables := s.tables.set e t.collect.2 }) := by
    simp only [step, HandleTables.get_eq_ok.mpr ht, HandleTables.collectIn_of_get? ht]
  have hlive : ∀ h, 0 < t.referencesTo h ↔ ⟨e, h⟩ ∈ s.live := fun h => by
    rw [hheld.live_iff, HandleTables.referencesTo, ht]
    rfl
  have hstays : ∀ h, t.collect.2.isValid h = true ↔
      t.isValid h = true ∧ (t.allocation = .fixed ∨ ⟨e, h⟩ ∈ s.live) := by
    intro h
    simp only [HandleTable.isValid_iff, t.inspect_collect, hlive]
    split <;> simp [*]
  rw [hstep]
  refine ⟨?_, fun r => ?_, rfl⟩
  · rw [t.collect_count]
    refine congrArg (fun l => Except.ok (Answer.count (List.length l)))
      (List.filter_congr fun h hh => ?_)
    rw [Bool.eq_iff_iff, Bool.not_eq_true', ← Bool.not_eq_true, hstays, decide_eq_true_iff]
    simp [HandleTable.mem_handles.mp hh]
  · rw [HandleTables.isValid_iff_table, HandleTables.isValid_iff_table,
      HandleTables.get?_set_collect ht]
    by_cases he : r.entity = e
    · subst he
      simp [ht, hstays]
    · simp [he]

/-! ## Handles over a run -/

/-- The entity type and the identifier whose handle an operation asks for. -/
def Operation.wanted : Operation → Option (EntityType × String)
  | .ensure e id _ | .intern e id _ | .lookup e id _ => some (e, id)
  | _ => none

theorem inspect_keep (s : ReferenceStore) (keep : Option String) (r r' : Reference) :
    (s.keep keep r).tables.inspect r' = s.tables.inspect r' := by
  cases keep with
  | none => rfl
  | some name =>
    exact (HandleTables.inspect_releaseAll _ _ r').trans (s.tables.inspect_retain r r')

/-- The handle that a table gives names the canonical form of what was asked for. -/
theorem inspect_obtain (hcoherent : s.tables.Coherent) {e : EntityType} {id : String} {h : Handle}
    {keep : Option String} {x : Except HandleError (Handle × HandleTables)}
    (hx : ∀ y, x = .ok y → s.tables.Issues e id y)
    (hgiven : (s.obtain e keep x).1 = .ok (.handle h)) :
    ∃ t canonical, s.tables.get? e = some t ∧ t.normalise id = .ok canonical ∧
      (s.obtain e keep x).2.tables.inspect ⟨e, h⟩ = some canonical := by
  cases x with
  | error err => cases hgiven
  | ok y =>
    obtain ⟨t, canonical, ht, hcanonical, hid⟩ := (hx y rfl).inspect hcoherent.sound
    cases hgiven
    exact ⟨t, canonical, ht, hcanonical, (inspect_keep _ keep _ _).trans hid⟩

/-- The handle that an operation is given names the canonical form of what it asked for. -/
theorem inspect_wanted (hcoherent : s.tables.Coherent) {op : Operation} {e : EntityType}
    {id : String} {h : Handle} (hwanted : op.wanted = some (e, id))
    (hgiven : (s.step op).1 = .ok (.handle h)) :
    ∃ t canonical, s.tables.get? e = some t ∧ t.normalise id = .ok canonical ∧
      (s.step op).2.tables.inspect ⟨e, h⟩ = some canonical := by
  cases op with
  | ensure entity id' keep =>
    cases hwanted
    exact inspect_obtain hcoherent (fun _ => HandleTables.issues_of_ensure) hgiven
  | intern entity id' keep =>
    cases hwanted
    exact inspect_obtain hcoherent (fun _ => HandleTables.issues_of_intern) hgiven
  | lookup entity id' keep =>
    cases hwanted
    simp only [step] at hgiven ⊢
    cases ht : s.tables.get e with
    | error err =>
      rw [ht] at hgiven
      cases hgiven
    | ok t =>
      rw [ht] at hgiven
      dsimp only at hgiven ⊢
      rw [HandleTables.get_eq_ok] at ht
      cases hh : t.lookup id with
      | none =>
        rw [hh] at hgiven
        cases hgiven
      | some h' =>
        rw [hh] at hgiven
        cases hgiven
        obtain ⟨canonical, hcanonical, hid⟩ := (hcoherent e t ht).lookup_iff.mp hh
        refine ⟨t, canonical, ht, hcanonical, (inspect_keep s keep _ _).trans ?_⟩
        exact HandleTables.inspect_eq_some.mpr ⟨t, ht, hid⟩
  | _ => cases hwanted

/-- What a handle named it still names as long as a reference on it is kept. -/
theorem Held.inspect_run (hheld : s.Held []) (later : List Operation) {r : Reference} {id : String}
    (hid : s.tables.inspect r = some id) (hlive : r ∈ (s.run later).live) :
    (s.run later).tables.inspect r = some id := by
  obtain ⟨hheld', hsucceeds⟩ := leads_run hheld later hheld
  obtain ⟨id', hid'⟩ := HandleTables.isValid_iff.mp (hheld'.isValid hlive)
  rw [hid', hsucceeds.inspect hheld.coherent hid hid']

/-- In every state of a run that starts with tables as they are made, identifiers and handles are
one to one, handles are counted and collected by the references on them, and a handle that named an
identifier names that one later, or nothing; it names it as long as somebody holds a reference. -/
theorem run_keeps_handles {tables : HandleTables} (hinitial : tables.Initial)
    (ops later : List Operation) :
    let s := (ofTables tables).run ops
    let s' := s.run later
    (∀ e t, s.tables.get? e = some t → t.OneToOne) ∧
    s.Counted ∧
    (∀ r id, s.tables.inspect r = some id → r ∈ s'.live → s'.tables.inspect r = some id) ∧
    (∀ op e id h, op.wanted = some (e, id) → (s.step op).1 = .ok (.handle h) →
      ∃ t canonical, s.tables.get? e = some t ∧ t.normalise id = .ok canonical ∧
        (s.step op).2.tables.inspect ⟨e, h⟩ = some canonical ∧
        (⟨e, h⟩ ∈ ((s.step op).2.run later).live →
          ((s.step op).2.run later).tables.inspect ⟨e, h⟩ = some canonical)) ∧
    (∀ e, s.CollectsUnreferenced e) ∧
    ∀ r id id', s.tables.inspect r = some id → s'.tables.inspect r = some id' → id' = id := by
  intro s s'
  have hstart := held_ofTables hinitial
  have hheld : s.Held [] := (leads_run hstart ops hstart).1
  have hsucceeds : s.tables.Succeeds s'.tables := (leads_run hheld later hheld).2
  refine ⟨fun e t ht => (hheld.coherent e t ht).oneToOne, hheld.counted,
    fun r id => hheld.inspect_run later, fun op e id h hwanted hgiven => ?_,
    hheld.collectsUnreferenced, fun r id id' => hsucceeds.inspect hheld.coherent⟩
  obtain ⟨t, canonical, ht, hcanonical, hid⟩ := inspect_wanted hheld.coherent hwanted hgiven
  exact ⟨t, canonical, ht, hcanonical, hid, (leads_step hheld op hheld).1.inspect_run later hid⟩

/-- A table of each kind. -/
def sampleTables : HandleTables where
  contact := .addresses .contact
  room := some (.requiringLookup .room)
  list := some (.fixed .list ["subscribe", "publish"])
  group := some (.onDemand .group)

theorem initial_sampleTables : sampleTables.Initial := by
  intro e t ht
  cases e <;> cases ht
  · exact .withNormaliser .contact HandleTable.idempotent_normaliseAddress
  · exact .requiringLookup .room
  · exact .fixed .list (by decide) (by decide)
  · exact .onDemand .group

/-- A contact is asked for, held twice under names and once in a set, and given back once. -/
def holding : List Operation :=
  [.ensure .contact " Ann@Example.org" (some "first"), .duplicate "first" (some "second"),
    .setInsert "contacts" "first", .drop "first", .collect .contact]

/-- Everything is given back and collected, and the contact is asked for again. -/
def startingOver : List Operation :=
  [.setMove "contacts" "others", .setInsert "others" "second", .drop "second", .setDrop "others",
    .collect .contact, .intern .contact "ann@example.org" (some "third")]

/-- The handle of a contact that is held outlives a collection. The number of one that was collected
stands for that contact or for nobody in every run that follows, while the contact has a new one. -/
theorem startingOver_safe :
    let s := (ofTables sampleTables).run holding
    let ann : Reference := ⟨.contact, .first⟩
    s.tables.inspect ann = some "ann@example.org" ∧ s.live.count ann = 2 ∧
      s.tables.referencesTo ann = s.live.count ann ∧
      (s.run startingOver).tables.inspect ann = none ∧
      (s.run startingOver).tables.inspect ⟨.contact, .next .first⟩ = some "ann@example.org" ∧
      ∀ later id, (s.run later).tables.inspect ann = some id → id = "ann@example.org" := by
  intro s ann
  have hnamed : s.tables.inspect ann = some "ann@example.org" := by decide +kernel
  refine ⟨hnamed, by decide +kernel, ?_, by decide +kernel, by decide +kernel,
    fun later id hid => ?_⟩
  · obtain ⟨-, ⟨hcounted, -⟩, -⟩ := run_keeps_handles initial_sampleTables holding []
    exact hcounted ann
  · obtain ⟨-, -, -, -, -, hsame⟩ := run_keeps_handles initial_sampleTables holding later
    exact hsame ann _ id hnamed hid

end ReferenceStore

end Telepathy

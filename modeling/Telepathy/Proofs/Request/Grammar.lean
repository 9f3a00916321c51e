import Telepathy.Proofs.Fallible
import Telepathy.Request.Validation

set_option autoImplicit false

/-!
# What the grammar of requests accepts

The check of a request reads one property after the other and stops at the first that is wrong. What
it accepts can be said without that order: `PropertyMap.WellFormed` lists what has to be true of
each property, and `PropertyMap.Requests` ties the well-formed request to the map it was read from.
The two agree with the check on every map, and nothing but a malformed map is refused.
-/

namespace Telepathy

/-! ## What a map has to say -/

namespace RequestedTarget

/-- The handle by which a target is named. -/
def handle? : RequestedTarget → Option Handle
  | handle h => some h
  | none | id _ => Option.none

/-- The identifier by which a target is named. -/
def id? : RequestedTarget → Option String
  | id s => some s
  | none | handle _ => Option.none

theorem eq_of_named {t t' : RequestedTarget} (hhandle : t.handle? = t'.handle?)
    (hid : t.id? = t'.id?) : t = t' := by
  cases t <;> cases t' <;> simp_all [handle?, id?]

end RequestedTarget

namespace PropertyMap

/-- A map says nothing about the entity type of a target, or says that it has none. -/
def Untargeted (p : PropertyMap) : Prop :=
  p.get? Property.targetEntity = none ∨ p.get? Property.targetEntity = some (.nat 0)

/-- A map that is a request: each property is of the right type and in its range, and they go
together. -/
structure WellFormed (p : PropertyMap) : Prop where
  channelType : ∃ s, p.get? Property.channelType = some (.text s)
  entity : ∀ v, p.get? Property.targetEntity = some v → ∃ n ≤ 4, v = .nat n
  handle : ∀ v, p.get? Property.targetHandle = some v → ∃ n, 1 ≤ n ∧ n ≤ 4294967295 ∧ v = .nat n
  id : ∀ v, p.get? Property.targetId = some v → ∃ s, v = .text s
  noInitiatorHandle : p.get? Property.initiatorHandle = none
  noInitiatorId : p.get? Property.initiatorId = none
  noRequested : p.get? Property.requested = none
  noTarget : p.Untargeted →
    p.get? Property.targetHandle = none ∧ p.get? Property.targetId = none
  oneTarget : ¬ p.Untargeted →
    (p.get? Property.targetHandle = none ↔ p.get? Property.targetId ≠ none)

/-- The request that a map stands for. -/
structure Requests (p : PropertyMap) (method : RequestMethod) (r : ValidRequest) : Prop where
  method : r.method = method
  properties : r.properties = p
  channelType : p.get? Property.channelType = some (.text r.channelType)
  entity : p.get? Property.targetEntity = some (.nat r.entity.wire) ∨
    p.get? Property.targetEntity = none ∧ r.entity = .none
  handle : p.get? Property.targetHandle = r.target.handle?.map fun h => .nat h.number
  word : ∀ h ∈ r.target.handle?, h.number < Value.wordLimit
  id : p.get? Property.targetId = r.target.id?.map .text
  targeted : r.target = .none ↔ r.entity = .none
  unreserved : ∀ k : ReservedProperty, p.get? k.key = none

end PropertyMap

/-! ## Reading one property -/

namespace ValidRequest

variable {p : PropertyMap}

theorem readChannelType_eq_ok {s : String} :
    readChannelType p = .ok s ↔ p.get? Property.channelType = some (.text s) := by
  unfold readChannelType
  split <;> simp_all

theorem readEntity_eq_ok {e : EntityType} :
    readEntity p = .ok e ↔ p.get? Property.targetEntity = some (.nat e.wire) ∧
      e.wire < Value.wordLimit ∨ p.get? Property.targetEntity = none ∧ e = .none := by
  unfold readEntity
  cases p.get? Property.targetEntity with
  | none => simp [eq_comm]
  | some v =>
    simp only [Option.some.injEq, reduceCtorEq, false_and, or_false, ← Value.word?_eq_some_iff]
    cases v.word? with
    | none => simp
    | some n =>
      simp only [Option.some.injEq, ← EntityType.ofWire?_eq_some_iff]
      cases EntityType.ofWire? n <;> simp

theorem readHandle_eq_ok {o : Option Handle} :
    readHandle p = .ok o ↔ p.get? Property.targetHandle = o.map (fun h => .nat h.number) ∧
      ∀ h ∈ o, h.number < Value.wordLimit := by
  unfold readHandle
  cases p.get? Property.targetHandle with
  | none => cases o <;> simp
  | some v =>
    cases o with
    | none =>
      simp only [Option.map_none, reduceCtorEq, false_and, iff_false]
      cases v.word? with
      | none => simp
      | some n => cases hn : Handle.ofNat? n <;> simp [hn]
    | some h =>
      simp only [Option.map_some, Option.some.injEq, Option.mem_def, forall_eq',
        ← Value.word?_eq_some_iff]
      cases v.word? with
      | none => simp
      | some n =>
        simp only [Option.some.injEq, ← Handle.ofNat?_eq_some_iff]
        cases Handle.ofNat? n <;> simp

theorem readId_eq_ok {o : Option String} :
    readId p = .ok o ↔ p.get? Property.targetId = o.map .text := by
  unfold readId
  split <;> cases o <;> simp_all

theorem checkReserved_eq_ok :
    checkReserved p = .ok () ↔ ∀ k : ReservedProperty, p.get? k.key = none := by
  have hall : ∀ k, k ∈ ReservedProperty.all := fun k => by
    cases k <;> decide
  unfold checkReserved
  split
  next k hk =>
    have hthere := List.find?_some hk
    refine iff_of_false (by simp) fun h => ?_
    simp [SortedMap.contains, h k] at hthere
  next hnone =>
    refine ⟨fun _ k => ?_, fun _ => rfl⟩
    simpa [SortedMap.contains] using List.find?_eq_none.mp hnone k (hall k)

theorem readTarget_eq_ok {e : EntityType} {h : Option Handle} {i : Option String}
    {t : RequestedTarget} :
    readTarget e h i = .ok t ↔ t.handle? = h ∧ t.id? = i ∧ (t = .none ↔ e = .none) := by
  cases e <;> cases h <;> cases i <;> cases t <;>
    simp [readTarget, RequestedTarget.handle?, RequestedTarget.id?, eq_comm]

end ValidRequest

/-! ## The whole check -/

namespace EntityType

theorem wire_le (e : EntityType) : e.wire ≤ 4 := by
  cases e <;> decide

theorem wire_lt (e : EntityType) : e.wire < Value.wordLimit :=
  Nat.lt_of_le_of_lt e.wire_le (by decide)

theorem exists_wire {n : Nat} (h : n ≤ 4) : ∃ e : EntityType, e.wire = n := by
  match n, h with
  | 0, _ => exact ⟨.none, rfl⟩
  | 1, _ => exact ⟨.contact, rfl⟩
  | 2, _ => exact ⟨.room, rfl⟩
  | 3, _ => exact ⟨.list, rfl⟩
  | 4, _ => exact ⟨.group, rfl⟩

theorem wire_eq_zero {e : EntityType} : e.wire = 0 ↔ e = .none := by
  cases e <;> decide

end EntityType

namespace PropertyMap

variable {p : PropertyMap} {method : RequestMethod} {r : ValidRequest}

/-- The check gives exactly the request that the map stands for. -/
theorem validate_eq_ok_iff : p.validate method = .ok r ↔ p.Requests method r := by
  constructor
  · intro h
    obtain ⟨channelType, htype, h⟩ := Except.bind_eq_ok.mp h
    obtain ⟨entity, hentity, h⟩ := Except.bind_eq_ok.mp h
    obtain ⟨handle, hhandle, h⟩ := Except.bind_eq_ok.mp h
    obtain ⟨id, hid, h⟩ := Except.bind_eq_ok.mp h
    obtain ⟨⟨⟩, hreserved, h⟩ := Except.bind_eq_ok.mp h
    obtain ⟨target, htarget, h⟩ := Except.bind_eq_ok.mp h
    cases h
    obtain ⟨rfl, rfl, htargeted⟩ := ValidRequest.readTarget_eq_ok.mp htarget
    exact
      { method := rfl
        properties := rfl
        channelType := ValidRequest.readChannelType_eq_ok.mp htype
        entity := (ValidRequest.readEntity_eq_ok.mp hentity).imp_left And.left
        handle := (ValidRequest.readHandle_eq_ok.mp hhandle).1
        word := (ValidRequest.readHandle_eq_ok.mp hhandle).2
        id := ValidRequest.readId_eq_ok.mp hid
        targeted := htargeted
        unreserved := ValidRequest.checkReserved_eq_ok.mp hreserved }
  · intro h
    have htype := ValidRequest.readChannelType_eq_ok.mpr h.channelType
    have hentity := ValidRequest.readEntity_eq_ok.mpr
      (h.entity.imp_left fun he => ⟨he, r.entity.wire_lt⟩)
    have hhandle := ValidRequest.readHandle_eq_ok.mpr ⟨h.handle, h.word⟩
    have hid := ValidRequest.readId_eq_ok.mpr h.id
    have hreserved := ValidRequest.checkReserved_eq_ok.mpr h.unreserved
    have htarget := ValidRequest.readTarget_eq_ok.mpr ⟨rfl, rfl, h.targeted⟩
    simp only [validate, htype, hentity, hhandle, hid, hreserved, htarget, bind, Except.bind, pure,
      Except.pure]
    rw [← h.method, ← h.properties]

theorem Requests.untargeted (h : p.Requests method r) : p.Untargeted ↔ r.entity = .none := by
  unfold Untargeted
  rcases h.entity with he | ⟨he, hnone⟩
  · rw [he, ← EntityType.wire_eq_zero]
    simp [Value.nat]
  · simp [he, hnone]

/-- Whatever stands for a request is well-formed. -/
theorem Requests.wellFormed (h : p.Requests method r) : p.WellFormed where
  channelType := ⟨_, h.channelType⟩
  entity v hv := by
    rcases h.entity with he | ⟨he, -⟩
    · exact ⟨r.entity.wire, r.entity.wire_le, Option.some.inj (hv.symm.trans he)⟩
    · cases hv.symm.trans he
  handle v hv := by
    obtain ⟨k, hk, rfl⟩ := Option.map_eq_some_iff.mp (h.handle.symm.trans hv)
    have hlt : k.number < 4294967296 := h.word k hk
    exact ⟨k.number, k.pos, by omega, rfl⟩
  id v hv := by
    obtain ⟨s, -, rfl⟩ := Option.map_eq_some_iff.mp (h.id.symm.trans hv)
    exact ⟨s, rfl⟩
  noInitiatorHandle := h.unreserved .initiatorHandle
  noInitiatorId := h.unreserved .initiatorId
  noRequested := h.unreserved .requested
  noTarget hun := by
    have hnone := h.targeted.mpr (h.untargeted.mp hun)
    rw [h.handle, h.id, hnone]
    exact ⟨rfl, rfl⟩
  oneTarget hun := by
    have hsome := mt h.targeted.mp (mt h.untargeted.mpr hun)
    rw [h.handle, h.id]
    cases htarget : r.target <;> simp_all [RequestedTarget.handle?, RequestedTarget.id?]

theorem WellFormed.exists_entity (h : p.WellFormed) : ∃ e : EntityType,
    (p.get? Property.targetEntity = some (.nat e.wire) ∨
      p.get? Property.targetEntity = none ∧ e = .none) ∧ (p.Untargeted ↔ e = .none) := by
  cases hget : p.get? Property.targetEntity with
  | none => exact ⟨.none, .inr ⟨rfl, rfl⟩, iff_of_true (.inl hget) rfl⟩
  | some v =>
    obtain ⟨n, hn, rfl⟩ := h.entity v hget
    obtain ⟨e, rfl⟩ := EntityType.exists_wire hn
    refine ⟨e, .inl rfl, ?_⟩
    rw [Untargeted, hget, ← EntityType.wire_eq_zero]
    simp [Value.nat]

theorem WellFormed.exists_handle (h : p.WellFormed) : ∃ o : Option Handle,
    p.get? Property.targetHandle = o.map (fun h => .nat h.number) ∧
      ∀ h ∈ o, h.number < Value.wordLimit := by
  cases hget : p.get? Property.targetHandle with
  | none => exact ⟨none, rfl, nofun⟩
  | some v =>
    obtain ⟨n, hpos, hn, rfl⟩ := h.handle v hget
    refine ⟨some ⟨n, hpos⟩, rfl, ?_⟩
    rintro _ ⟨⟩
    exact Nat.lt_of_le_of_lt hn (by decide)

theorem WellFormed.exists_id (h : p.WellFormed) : ∃ o : Option String,
    p.get? Property.targetId = o.map .text := by
  cases hget : p.get? Property.targetId with
  | none => exact ⟨none, rfl⟩
  | some v =>
    obtain ⟨s, rfl⟩ := h.id v hget
    exact ⟨some s, rfl⟩

/-- A well-formed map stands for a request. -/
theorem WellFormed.exists_requests (h : p.WellFormed) (method : RequestMethod) :
    ∃ r, p.Requests method r := by
  obtain ⟨channelType, htype⟩ := h.channelType
  obtain ⟨entity, hentity, huntargeted⟩ := h.exists_entity
  obtain ⟨handle, hhandle, hword⟩ := h.exists_handle
  obtain ⟨id, hid⟩ := h.exists_id
  -- The target is the one that is named; which one that is decides the last two conditions.
  have htarget : ∃ t : RequestedTarget,
      t.handle? = handle ∧ t.id? = id ∧ (t = .none ↔ entity = .none) := by
    by_cases hun : p.Untargeted
    · obtain ⟨hnoHandle, hnoId⟩ := h.noTarget hun
      have hhandle := Option.map_eq_none_iff.mp (hhandle.symm.trans hnoHandle)
      have hid := Option.map_eq_none_iff.mp (hid.symm.trans hnoId)
      exact ⟨.none, hhandle.symm, hid.symm, iff_of_true rfl (huntargeted.mp hun)⟩
    · have hone := h.oneTarget hun
      have hentity : entity ≠ .none := mt huntargeted.mpr hun
      rw [hhandle, hid] at hone
      cases handle with
      | some k => exact ⟨.handle k, rfl, by cases id <;> simp_all [RequestedTarget.id?], by simpa⟩
      | none =>
        cases id with
        | some s => exact ⟨.id s, rfl, rfl, by simpa⟩
        | none => simp at hone
  obtain ⟨target, rfl, rfl, htargeted⟩ := htarget
  exact ⟨⟨method, channelType, entity, target, p⟩,
    { method := rfl
      properties := rfl
      channelType := htype
      entity := hentity
      handle := hhandle
      word := hword
      id := hid
      targeted := htargeted
      unreserved := by
        intro k
        cases k
        · exact h.noInitiatorHandle
        · exact h.noInitiatorId
        · exact h.noRequested }⟩

/-- The check succeeds exactly on well-formed maps. -/
theorem validate_isOk_iff : (∃ r, p.validate method = .ok r) ↔ p.WellFormed := by
  constructor
  · rintro ⟨r, hr⟩
    exact (validate_eq_ok_iff.mp hr).wellFormed
  · intro h
    obtain ⟨r, hr⟩ := h.exists_requests method
    exact ⟨r, validate_eq_ok_iff.mpr hr⟩

/-! ## Calls of old clients -/

section Legacy

variable {channelType : String} {entity handle : Nat}

theorem get?_ofLegacy (key : String) : (ofLegacy channelType entity handle).get? key =
    if key = Property.targetHandle ∧ handle ≠ 0 then some (.nat handle)
    else if key = Property.targetEntity then some (.nat entity)
    else if key = Property.channelType then some (.text channelType)
    else none := by
  by_cases hzero : handle = 0 <;>
    simp [ofLegacy, hzero, SortedMap.ofList, SortedMap.get?_insert]

/-- A call of an old client that says enough, and not too much, about its target. -/
def LegacyTarget (entity handle : Nat) : Prop :=
  entity = 0 ∧ handle = 0 ∨ (1 ≤ entity ∧ entity ≤ 4) ∧ handle ≠ 0

/-- The target of a call of an old client. -/
def legacyTarget (handle : Nat) : RequestedTarget := (Handle.ofNat? handle).elim .none .handle

theorem legacyTarget_handle? : (legacyTarget handle).handle? = Handle.ofNat? handle := by
  unfold legacyTarget
  cases Handle.ofNat? handle <;> rfl

theorem legacyTarget_id? : (legacyTarget handle).id? = none := by
  unfold legacyTarget
  cases Handle.ofNat? handle <;> rfl

theorem legacyTarget_eq_none : legacyTarget handle = .none ↔ handle = 0 := by
  unfold legacyTarget Handle.ofNat?
  split <;> simp <;> omega

theorem get?_ofLegacy_targetHandle :
    (ofLegacy channelType entity handle).get? Property.targetHandle =
      (legacyTarget handle).handle?.map fun h => .nat h.number := by
  rw [get?_ofLegacy, legacyTarget_handle?]
  by_cases hzero : handle = 0
  · subst hzero
    rfl
  · simp [hzero, Handle.ofNat?, Nat.pos_of_ne_zero hzero]

theorem get?_ofLegacy_targetEntity :
    (ofLegacy channelType entity handle).get? Property.targetEntity = some (.nat entity) := by
  have hne : Property.targetEntity ≠ Property.targetHandle := by decide
  simp [get?_ofLegacy, hne]

theorem get?_ofLegacy_channelType :
    (ofLegacy channelType entity handle).get? Property.channelType = some (.text channelType) := by
  have hne : Property.channelType ≠ Property.targetHandle := by decide
  have hne' : Property.channelType ≠ Property.targetEntity := by decide
  simp [get?_ofLegacy, hne, hne']

theorem get?_ofLegacy_targetId :
    (ofLegacy channelType entity handle).get? Property.targetId = none := by
  have hkey : Property.targetId ∉
    [Property.targetHandle, Property.targetEntity, Property.channelType] := by decide
  simp_all [get?_ofLegacy]

theorem get?_ofLegacy_reserved (k : ReservedProperty) :
    (ofLegacy channelType entity handle).get? k.key = none := by
  have hkey : k.key ∉ [Property.targetHandle, Property.targetEntity, Property.channelType] := by
    cases k <;> decide
  simp_all [get?_ofLegacy]

/-- The request that a call of an old client stands for, if it stands for one. -/
theorem requests_ofLegacy (hword : handle < Value.wordLimit) :
    (ofLegacy channelType entity handle).Requests method r ↔
      LegacyTarget entity handle ∧ r.method = method ∧ r.channelType = channelType ∧
        r.entity.wire = entity ∧ r.target = legacyTarget handle ∧
        r.properties = ofLegacy channelType entity handle := by
  constructor
  · intro h
    have hentity : r.entity.wire = entity := by
      have he := h.entity
      rw [get?_ofLegacy_targetEntity] at he
      simpa [Value.nat, eq_comm] using he
    have htype : r.channelType = channelType := by
      have ht := h.channelType
      rw [get?_ofLegacy_channelType] at ht
      simpa [eq_comm] using ht
    have htarget : r.target = legacyTarget handle := by
      have hid := h.id
      rw [get?_ofLegacy_targetId] at hid
      have hhandle := h.handle
      rw [get?_ofLegacy_targetHandle] at hhandle
      refine RequestedTarget.eq_of_named ?_ ?_
      · exact Option.map_injective (fun a b hab => Handle.ext (by simpa [Value.nat] using hab))
          hhandle.symm
      · rw [legacyTarget_id?, Option.map_eq_none_iff.mp hid.symm]
    have hgiven : entity = 0 ↔ handle = 0 := by
      rw [← hentity, EntityType.wire_eq_zero, ← h.targeted, htarget, legacyTarget_eq_none]
    have hle : entity ≤ 4 := hentity ▸ r.entity.wire_le
    exact ⟨by unfold LegacyTarget; omega, h.method, htype, hentity, htarget, h.properties⟩
  · rintro ⟨hlegacy, hmethod, htype, hentity, htarget, hproperties⟩
    exact
      { method := hmethod
        properties := hproperties
        channelType := htype ▸ get?_ofLegacy_channelType
        entity := .inl (hentity ▸ get?_ofLegacy_targetEntity)
        handle := htarget ▸ get?_ofLegacy_targetHandle
        word := fun k hk => by
          rw [htarget, legacyTarget_handle?] at hk
          exact Handle.ofNat?_eq_some_iff.mp hk ▸ hword
        id := by rw [get?_ofLegacy_targetId, htarget, legacyTarget_id?, Option.map_none]
        targeted := by
          rw [htarget, legacyTarget_eq_none, ← EntityType.wire_eq_zero, hentity]
          unfold LegacyTarget at hlegacy
          omega
        unreserved := get?_ofLegacy_reserved }

/-- A call of an old client is accepted exactly if it gives both an entity type and a handle, or
neither. -/
theorem exists_requests_ofLegacy (hword : handle < Value.wordLimit) :
    (∃ r, (ofLegacy channelType entity handle).Requests method r) ↔ LegacyTarget entity handle := by
  constructor
  · rintro ⟨r, hr⟩
    exact ((requests_ofLegacy hword).mp hr).1
  · intro h
    have hle : entity ≤ 4 := by
      unfold LegacyTarget at h
      omega
    obtain ⟨e, he⟩ := EntityType.exists_wire hle
    exact ⟨⟨method, channelType, e, legacyTarget handle, ofLegacy channelType entity handle⟩,
      (requests_ofLegacy hword).mpr ⟨h, rfl, rfl, he, rfl, rfl⟩⟩

end Legacy

/-! ## The grammar -/

/-- A property map is accepted exactly if it is well-formed, as the request it stands for, which
keeps the map; any other is refused as an invalid argument. So a call of an old client is accepted
exactly if it gives both an entity type and a handle or neither, and its target is that handle. -/
theorem validate_accepts_wellFormed (method : RequestMethod) (p : PropertyMap) :
    ((∃ r, p.validate method = .ok r) ↔ p.WellFormed) ∧
      (∀ r, p.validate method = .ok r ↔ p.Requests method r) ∧
      (∀ m, p.validate method = .error m → m.toError.kind = .invalidArgument) ∧
      ∀ (channelType : String) (entity handle : UInt32),
        ((∃ r, (ofLegacy channelType entity.toNat handle.toNat).validate method = .ok r) ↔
          LegacyTarget entity.toNat handle.toNat) ∧
        ∀ r, (ofLegacy channelType entity.toNat handle.toNat).validate method = .ok r →
          r.channelType = channelType ∧ r.entity.wire = entity.toNat ∧
            r.target = legacyTarget handle.toNat := by
  refine ⟨validate_isOk_iff, fun r => validate_eq_ok_iff, fun _ _ => rfl, ?_⟩
  intro channelType entity handle
  have hword : handle.toNat < Value.wordLimit := handle.toNat_lt
  simp only [validate_eq_ok_iff]
  refine ⟨exists_requests_ofLegacy hword, fun r hr => ?_⟩
  obtain ⟨-, -, htype, hentity, htarget, -⟩ := (requests_ofLegacy hword).mp hr
  exact ⟨htype, hentity, htarget⟩

end PropertyMap

end Telepathy

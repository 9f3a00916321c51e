import Telepathy.Proofs.Request.Grammar
import Telepathy.Request.Basic

set_option autoImplicit false

/-!
# Requests in normal form

However a client names the target of a request, managers see the same properties: the entity type is
there, the target is a handle, and everything else is as it was supplied. These properties are a
well-formed request again, for the same target, and resolving them changes nothing more.
-/

namespace Telepathy

namespace ChannelRequest

variable {p : PropertyMap} {method : RequestMethod} {r : ValidRequest} {target : Option Handle}

/-! ## The properties that managers see -/

theorem get?_resolvedProperties (p : PropertyMap) (entity : EntityType) (target : Option Handle)
    (key : String) :
    (resolvedProperties p entity target).get? key =
      if key = Property.targetHandle ∧ target.isSome = true then target.map fun h => .nat h.number
      else if key = Property.targetEntity then some (.nat entity.wire)
      else if key = Property.targetId then none
      else p.get? key := by
  cases target <;> simp [resolvedProperties, SortedMap.get?_insert, SortedMap.get?_erase]

/-- To resolve the same target again changes nothing. -/
theorem resolvedProperties_idem (p : PropertyMap) (entity : EntityType) (target : Option Handle) :
    resolvedProperties (resolvedProperties p entity target) entity target =
      resolvedProperties p entity target := by
  refine SortedMap.ext_get? fun key => ?_
  simp only [get?_resolvedProperties]
  by_cases hhandle : key = Property.targetHandle ∧ target.isSome = true
  · rw [if_pos hhandle, if_pos hhandle]
  · by_cases hentity : key = Property.targetEntity
    · simp only [if_neg hhandle, if_pos hentity]
    · by_cases hid : key = Property.targetId
      · simp only [if_neg hhandle, if_neg hentity, if_pos hid]
      · simp only [if_neg hhandle, if_neg hentity, if_neg hid]

/-- The properties of a request as it is offered, against those that were supplied: the target is
named by its handle if there is one, and nothing else is different. -/
structure Normalises (R : ChannelRequest) (p : PropertyMap) : Prop where
  others : ∀ key, key ∉ [Property.targetEntity, Property.targetHandle, Property.targetId] →
    R.properties.get? key = p.get? key
  entity : R.properties.get? Property.targetEntity = some (.nat R.entity.wire)
  handle : R.properties.get? Property.targetHandle = R.target.map fun h => .nat h.number
  noId : R.properties.get? Property.targetId = none

/-- What is offered for a request is that request in normal form, provided that a target was found
if one was named. -/
theorem normalises_new (hr : p.Requests method r) (htarget : target = none → r.target = .none)
    (token : RequestToken) (targetId : Option String) :
    (new token r target targetId).Normalises p where
  others key hkey := by
    simp only [new, hr.properties, get?_resolvedProperties]
    simp_all
  entity := by
    have hne : Property.targetEntity ≠ Property.targetHandle := by decide
    simp [new, get?_resolvedProperties, hne]
  handle := by
    have hne : Property.targetHandle ≠ Property.targetEntity := by decide
    have hne' : Property.targetHandle ≠ Property.targetId := by decide
    cases target with
    | some h => simp [new, get?_resolvedProperties]
    | none =>
      -- No target was named, by handle or otherwise.
      have hnone : p.get? Property.targetHandle = none := by rw [hr.handle, htarget rfl]; rfl
      simp [new, hr.properties, get?_resolvedProperties, hne, hne', hnone]
  noId := by
    have hne : Property.targetId ≠ Property.targetHandle := by decide
    have hne' : Property.targetId ≠ Property.targetEntity := by decide
    simp [new, get?_resolvedProperties, hne, hne']

/-! ## Submitting them again -/

/-- The request that the properties of an offered one stand for. -/
def restated (R : ChannelRequest) (method : RequestMethod) : ValidRequest where
  method
  channelType := R.channelType
  entity := R.entity
  target := R.target.elim .none .handle
  properties := R.properties

theorem restated_target_handle? (R : ChannelRequest) (method : RequestMethod) :
    (R.restated method).target.handle? = R.target := by
  change (R.target.elim RequestedTarget.none .handle).handle? = R.target
  cases R.target <;> rfl

theorem restated_target_id? (R : ChannelRequest) (method : RequestMethod) :
    (R.restated method).target.id? = none := by
  change (R.target.elim RequestedTarget.none .handle).id? = none
  cases R.target <;> rfl

theorem restated_target_eq_none (R : ChannelRequest) (method : RequestMethod) :
    (R.restated method).target = .none ↔ R.target = none := by
  change R.target.elim RequestedTarget.none .handle = .none ↔ R.target = none
  cases R.target <;> simp

/-- The properties that managers see are a well-formed request for the same target, whatever the
method. -/
theorem requests_restated (hr : p.Requests method r) (htarget : target = none ↔ r.target = .none)
    (hword : ∀ h ∈ target, h.number < Value.wordLimit) (token : RequestToken)
    (targetId : Option String) (method' : RequestMethod) :
    (new token r target targetId).properties.Requests method'
      ((new token r target targetId).restated method') := by
  have hnormal := normalises_new hr htarget.mp token targetId
  have hsame : ∀ key, key ∉ [Property.targetEntity, Property.targetHandle, Property.targetId] →
    (new token r target targetId).properties.get? key = p.get? key := hnormal.others
  exact
    { method := rfl
      properties := rfl
      channelType := (hsame _ (by decide)).trans hr.channelType
      entity := .inl hnormal.entity
      handle := by rw [restated_target_handle?, hnormal.handle]
      word := by rwa [restated_target_handle?]
      id := by rw [restated_target_id?, hnormal.noId, Option.map_none]
      targeted := by
        rw [restated_target_eq_none]
        exact htarget.trans hr.targeted
      unreserved := fun k => (hsame _ (by cases k <;> decide)).trans (hr.unreserved k) }

/-- What is offered when it is submitted again is the same, under another token. -/
theorem new_restated (r : ValidRequest) (target : Option Handle) (targetId : Option String)
    (token token' : RequestToken) (method : RequestMethod) :
    new token' ((new token r target targetId).restated method) target targetId =
      { new token r target targetId with token := token', method } := by
  simp only [new, restated, resolvedProperties_idem]

end ChannelRequest

end Telepathy

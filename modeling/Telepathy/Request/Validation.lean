import Telepathy.Error
import Telepathy.Handle.Basic
import Telepathy.Request.Method
import Telepathy.Value.Property

set_option autoImplicit false

/-!
# The grammar of channel requests

A request is a property map. It is well-formed if it names a channel type, if what it says about its
target has the right types and fits together, and if it leaves alone the properties that only the
connection may set. Nothing is looked up or allocated to find this out.
-/

namespace Telepathy

/-- How a request names its target. -/
inductive RequestedTarget
  /-- There is no target. -/
  | none
  | handle (h : Handle)
  | id (id : String)
deriving DecidableEq, Repr

/-- A well-formed request. -/
structure ValidRequest where
  method : RequestMethod
  channelType : String
  entity : EntityType
  target : RequestedTarget
  /-- The properties as the client gave them. -/
  properties : PropertyMap
deriving DecidableEq

/-- A property that only the connection may set. -/
inductive ReservedProperty
  | initiatorHandle
  | initiatorId
  | requested
deriving DecidableEq, Repr

namespace ReservedProperty

/-- All of them, in the order in which requests are checked for them. -/
def all : List ReservedProperty := [initiatorHandle, initiatorId, requested]

/-- The qualified name of the property. -/
def key : ReservedProperty → String
  | initiatorHandle => Property.initiatorHandle
  | initiatorId => Property.initiatorId
  | requested => Property.requested

/-- The short name of the property. -/
def shortName : ReservedProperty → String
  | initiatorHandle => "InitiatorHandle"
  | initiatorId => "InitiatorID"
  | requested => "Requested"

end ReservedProperty

/-- What is wrong with a malformed request. -/
inductive Malformation
  | noChannelType
  | channelTypeNotText
  | entityNotWord
  | unknownEntity (n : Nat)
  | handleNotWord
  | handleZero
  | idNotText
  | reserved (p : ReservedProperty)
  /-- A target is given although the entity type is none. -/
  | targetWithoutEntity
  /-- An entity type is given, with no target or with two. -/
  | notOneTarget
deriving DecidableEq, Repr

namespace Malformation

/-- The text of a malformation. -/
def message : Malformation → String
  | noChannelType => "ChannelType is required"
  | channelTypeNotText => "ChannelType must be a string"
  | entityNotWord => "TargetHandleType must be an integer in range 0 to 2**32-1"
  | unknownEntity n => s!"TargetHandleType {n} is not a known type"
  | handleNotWord => "TargetHandle must be an integer in range 0 to 2**32-1"
  | handleZero => "TargetHandle must be non-zero"
  | idNotText => "TargetID must be a string"
  | reserved p => s!"{p.shortName} is set by the connection and may not be requested"
  | targetWithoutEntity =>
    "When TargetHandleType is NONE, neither TargetHandle nor TargetID can be specified"
  | notOneTarget => "Exactly one of TargetHandle and TargetID must be supplied"

/-- The error a client sees. -/
def toError (m : Malformation) : Error := ⟨.invalidArgument, m.message⟩

end Malformation

namespace ValidRequest

/-! ## Reading the properties -/

/-- The channel type of a request. -/
def readChannelType (p : PropertyMap) : Except Malformation String :=
  match p.get? Property.channelType with
  | none => .error .noChannelType
  | some (.text s) => .ok s
  | some _ => .error .channelTypeNotText

/-- The entity type of a request, none if it says nothing. -/
def readEntity (p : PropertyMap) : Except Malformation EntityType :=
  match p.get? Property.targetEntity with
  | none => .ok .none
  | some v =>
    match v.word? with
    | none => .error .entityNotWord
    | some n =>
      match EntityType.ofWire? n with
      | none => .error (.unknownEntity n)
      | some e => .ok e

/-- The target handle of a request, if it gives one. -/
def readHandle (p : PropertyMap) : Except Malformation (Option Handle) :=
  match p.get? Property.targetHandle with
  | none => .ok none
  | some v =>
    match v.word? with
    | none => .error .handleNotWord
    | some n =>
      match Handle.ofNat? n with
      | none => .error .handleZero
      | some h => .ok (some h)

/-- The target identifier of a request, if it gives one. -/
def readId (p : PropertyMap) : Except Malformation (Option String) :=
  match p.get? Property.targetId with
  | none => .ok none
  | some (.text s) => .ok (some s)
  | some _ => .error .idNotText

/-- Checks that no reserved property is there, with whatever value. -/
def checkReserved (p : PropertyMap) : Except Malformation Unit :=
  match ReservedProperty.all.find? fun r => p.contains r.key with
  | some r => .error (.reserved r)
  | none => .ok ()

/-- The one target of a request, or none. -/
def readTarget : EntityType → Option Handle → Option String → Except Malformation RequestedTarget
  -- Without an entity type neither form of a target makes sense; with one, exactly one does.
  | .none, none, none => .ok .none
  | .none, _, _ => .error .targetWithoutEntity
  | _, some h, none => .ok (.handle h)
  | _, none, some id => .ok (.id id)
  | _, _, _ => .error .notOneTarget

end ValidRequest

/-- Checks the form of a request. -/
def PropertyMap.validate (p : PropertyMap) (method : RequestMethod) :
    Except Malformation ValidRequest := do
  let channelType ← ValidRequest.readChannelType p
  let entity ← ValidRequest.readEntity p
  let handle ← ValidRequest.readHandle p
  let id ← ValidRequest.readId p
  ValidRequest.checkReserved p
  let target ← ValidRequest.readTarget entity handle id
  return { method, channelType, entity, target, properties := p }

/-- The properties that say the same as a call of an old client. -/
def PropertyMap.ofLegacy (channelType : String) (entity handle : Nat) : PropertyMap :=
  let p : PropertyMap :=
    .ofList [(Property.channelType, .text channelType), (Property.targetEntity, .nat entity)]
  if handle = 0 then p else p.insert Property.targetHandle (.nat handle)

end Telepathy

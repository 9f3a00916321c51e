import Telepathy.Channel.Details
import Telepathy.Fault
import Telepathy.Request.Validation

set_option autoImplicit false

/-!
# Channel requests

A well-formed request whose target has been found is a `ChannelRequest`: it has a token, and its
properties name the target by handle, however the client named it. Requests are offered to channel
managers, which report on them by token.
-/

namespace Telepathy

namespace RequestToken

instance : Ord RequestToken := ⟨fun a b => compare a.number b.number⟩

instance : Std.TransOrd RequestToken where
  eq_swap := Std.OrientedOrd.eq_swap (α := Nat)
  isLE_trans := Std.TransOrd.isLE_trans (α := Nat)

instance : Std.LawfulEqOrd RequestToken where
  compare_self := Std.ReflOrd.compare_self (α := Nat)
  eq_of_compare {a b} h := by
    cases a
    cases b
    cases Std.LawfulEqOrd.eq_of_compare (α := Nat) h
    rfl

end RequestToken

/-- A request that waits until its target identifier has been looked up. -/
structure LookupTicket where
  number : Nat
deriving DecidableEq, Repr

namespace LookupTicket

/-- A ticket in messages. -/
def text (t : LookupTicket) : String := s!"lookup#{t.number}"

instance : Ord LookupTicket := ⟨fun a b => compare a.number b.number⟩

instance : Std.TransOrd LookupTicket where
  eq_swap := Std.OrientedOrd.eq_swap (α := Nat)
  isLE_trans := Std.TransOrd.isLE_trans (α := Nat)

instance : Std.LawfulEqOrd LookupTicket where
  compare_self := Std.ReflOrd.compare_self (α := Nat)
  eq_of_compare {a b} h := by
    cases a
    cases b
    cases Std.LawfulEqOrd.eq_of_compare (α := Nat) h
    rfl

end LookupTicket

/-- A request as it is offered to channel managers. -/
structure ChannelRequest where
  token : RequestToken
  method : RequestMethod
  channelType : String
  entity : EntityType
  target : Option Handle
  /-- The identifier of the target, as its table spells it. -/
  targetId : Option String
  /-- The requested properties, with the target as a handle. -/
  properties : PropertyMap
deriving DecidableEq

namespace ChannelRequest

/-- The properties of a request once its target is known. -/
def resolvedProperties (p : PropertyMap) (entity : EntityType) (target : Option Handle) :
    PropertyMap :=
  let p := (p.erase Property.targetId).insert Property.targetEntity (.nat entity.wire)
  match target with
  | some h => p.insert Property.targetHandle (.nat h.number)
  | none => p

/-- The request of a given token with its target found. -/
def new (token : RequestToken) (r : ValidRequest) (target : Option Handle)
    (targetId : Option String) : ChannelRequest where
  token
  method := r.method
  channelType := r.channelType
  entity := r.entity
  target
  targetId
  properties := resolvedProperties r.properties r.entity target

end ChannelRequest

end Telepathy

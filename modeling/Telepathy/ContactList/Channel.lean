import Telepathy.ContactList.Capabilities
import Telepathy.Group.Membership
import Telepathy.Request.Basic

set_option autoImplicit false

/-!
# Channels of a contact list

Each well-known list and each contact group is a channel with members. A channel may exist before
clients are told of it; requests for it wait in its queue until they are.
-/

namespace Telepathy

/-- What a channel of a contact list stands for. -/
inductive ContactTarget
  | list (kind : ListKind)
  | group (name : String)
deriving DecidableEq, Repr

namespace ContactTarget

/-- The entity type of the target's handle. -/
def entity : ContactTarget → EntityType
  | list _ => .list
  | group _ => .group

/-- The identifier of the target. -/
def name : ContactTarget → String
  | list kind => kind.name
  | group name => name

/-- The group a channel stands for, if it stands for one. -/
def group? : ContactTarget → Option String
  | list _ => none
  | group name => some name

/-- Lists come before groups; lists have an order of their own, groups go by name. -/
def order : ContactTarget → ContactTarget → Ordering
  | list a, list b => compare a.rank b.rank
  | list _, group _ => .lt
  | group _, list _ => .gt
  | group a, group b => compare a b

instance : Ord ContactTarget := ⟨order⟩

instance : Std.TransOrd ContactTarget where
  eq_swap {a b} := by
    cases a <;> cases b
    · exact Std.OrientedOrd.eq_swap (α := Nat)
    · rfl
    · rfl
    · exact Std.OrientedOrd.eq_swap (α := String)
  isLE_trans {a b c} h h' := by
    cases a <;> cases b <;> cases c
    · exact Std.TransOrd.isLE_trans (α := Nat) h h'
    · rfl
    · exact Bool.noConfusion (show false = true from h')
    · rfl
    · exact Bool.noConfusion (show false = true from h)
    · exact Bool.noConfusion (show false = true from h)
    · exact Bool.noConfusion (show false = true from h')
    · exact Std.TransOrd.isLE_trans (α := String) h h'

instance : Std.LawfulEqOrd ContactTarget where
  compare_self {a} := by
    cases a
    · exact Std.ReflOrd.compare_self (α := Nat)
    · exact Std.ReflOrd.compare_self (α := String)
  eq_of_compare {a b} h := by
    cases a <;> cases b
    · rw [ListKind.rank_injective (Std.LawfulEqOrd.eq_of_compare (α := Nat) h)]
    · cases h
    · cases h
    · rw [Std.LawfulEqOrd.eq_of_compare (α := String) h]

end ContactTarget

/-- A channel of a contact list. -/
structure ContactChannel where
  /-- The handle of the list or group. -/
  handle : Handle
  path : ObjectPath
  membership : Membership
  /-- Whether the channel was created because a client requested it. -/
  requested : Bool
  /-- Whether clients have been told of the channel. -/
  announced : Bool
  /-- Requests that wait for the announcement, in the order of their arrival. -/
  queued : List RequestToken
deriving DecidableEq

namespace ContactChannel

/-- The channel as clients are told of it. -/
def details (c : ContactChannel) (t : ContactTarget) : ChannelDetails where
  path := c.path
  properties := .ofList
    [(Property.channelType, .text Property.contactListType),
      (Property.targetEntity, .nat t.entity.wire),
      (Property.targetHandle, .nat c.handle.number),
      (Property.targetId, .text t.name),
      (Property.requested, .bool c.requested),
      (Property.interfaces, .array [.text Property.groupInterface])]

/-- The channel once clients have been told of it; nobody waits any longer. -/
def announce (c : ContactChannel) : ContactChannel := { c with announced := true, queued := [] }

/-- The channel with one more request waiting. -/
def queue (c : ContactChannel) (token : RequestToken) : ContactChannel :=
  { c with queued := c.queued ++ [token] }

end ContactChannel

end Telepathy

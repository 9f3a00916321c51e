import Telepathy.Group.Flags

set_option autoImplicit false

/-!
# What a contact list can do

The protocol behind a contact list decides which of the four well-known lists exist, and whether
clients may change them and the user's groups.
-/

namespace Telepathy

/-- How groups are renamed. -/
inductive GroupRename
  /-- In one step. -/
  | native
  /-- By creating the new group, copying the members and removing the old group. -/
  | emulated
deriving DecidableEq, Repr

/-- How far groups are supported. -/
inductive GroupSupport
  | none
  /-- Groups exist, but clients cannot change them. -/
  | readOnly
  /-- Clients may change groups. -/
  | editable (rename : GroupRename)
deriving DecidableEq, Repr

namespace GroupSupport

/-- Whether groups exist. -/
def isSupported : GroupSupport → Bool
  | none => false
  | readOnly | editable _ => true

/-- Whether clients may change groups. -/
def isEditable : GroupSupport → Bool
  | none | readOnly => false
  | editable _ => true

end GroupSupport

/-- What the protocol behind a contact list can do. -/
structure Capabilities where
  /-- Clients may change subscriptions and the stored list. -/
  canChange : Bool
  /-- Contacts are stored on the server. -/
  persists : Bool
  /-- A message goes along with subscription requests. -/
  usesMessage : Bool
  /-- Contacts can be blocked. -/
  canBlock : Bool
  groups : GroupSupport
deriving DecidableEq, Repr

/-- The well-known contact lists. -/
inductive ListKind
  /-- Contacts whose presence the user receives. -/
  | subscribe
  /-- Contacts who receive the user's presence. -/
  | publish
  /-- Contacts stored on the server. -/
  | stored
  /-- Blocked contacts. -/
  | deny
deriving DecidableEq, Repr

namespace ListKind

/-- All lists, in the order in which they are announced. -/
def all : List ListKind := [subscribe, publish, stored, deny]

/-- The identifier of a list. -/
def name : ListKind → String
  | subscribe => "subscribe"
  | publish => "publish"
  | stored => "stored"
  | deny => "deny"

/-- The list with a given identifier. -/
def ofName? (s : String) : Option ListKind := all.find? (·.name == s)

/-- The position of a list among all. -/
def rank : ListKind → Nat
  | subscribe => 0
  | publish => 1
  | stored => 2
  | deny => 3

theorem rank_injective {a b : ListKind} (h : a.rank = b.rank) : a = b := by
  cases a <;> cases b <;> first | rfl | cases h

/-- Whether a protocol has this list. -/
def isSupported (k : ListKind) (c : Capabilities) : Bool :=
  match k with
  | subscribe | publish => true
  | stored => c.persists
  | deny => c.canBlock

/-- Whether clients may change this list; blocking needs no further permission. -/
def isEditable (k : ListKind) (c : Capabilities) : Bool :=
  match k with
  | deny => true
  | subscribe | publish | stored => c.canChange

/-- The flags by which clients change a list that they may change. -/
def editingFlags (k : ListKind) (c : Capabilities) : GroupFlags :=
  match k with
  | subscribe =>
    .canAdd ||| .canRemove ||| .canRescind ||| (if c.usesMessage then .messageAdd else .none)
  | publish => .canRemove ||| .messageReject ||| .messageRemove
  | stored | deny => .canAdd ||| .canRemove

/-- The group flags of a list. -/
def flags (k : ListKind) (c : Capabilities) : GroupFlags :=
  (if k.isEditable c then k.editingFlags c else .none) ||| .properties

end ListKind

/-- The group flags of a contact group. -/
def GroupSupport.flags (s : GroupSupport) : GroupFlags :=
  (if s.isEditable then .canAdd ||| .canRemove else .none) ||| .properties

end Telepathy

set_option autoImplicit false

/-!
# Handles

A handle is a positive number that stands for an identifier of one entity type: a contact, a chat
room, a contact list or a contact group. Zero means "no handle" on the bus and is not a `Handle`.
-/

namespace Telepathy

/-- What a handle names. -/
inductive EntityType
  /-- No target at all. -/
  | none
  /-- A contact. -/
  | contact
  /-- A chat room. -/
  | room
  /-- A well-known contact list. -/
  | list
  /-- A contact group defined by the user. -/
  | group
deriving DecidableEq, Repr

namespace EntityType

/-- The integer for an entity type on the bus. -/
def wire : EntityType → Nat
  | none => 0
  | contact => 1
  | room => 2
  | list => 3
  | group => 4

/-- The entity type for an integer from the bus. -/
def ofWire? : Nat → Option EntityType
  | 0 => some none
  | 1 => some contact
  | 2 => some room
  | 3 => some list
  | 4 => some group
  | _ => Option.none

/-- The name of an entity type, as messages spell it. -/
def name : EntityType → String
  | none => "none"
  | contact => "contact"
  | room => "room"
  | list => "list"
  | group => "group"

theorem ofWire?_eq_some_iff {n : Nat} {e : EntityType} : ofWire? n = some e ↔ n = e.wire := by
  constructor
  · intro h
    unfold ofWire? at h
    split at h <;> cases h <;> rfl
  · rintro rfl
    cases e <;> rfl

instance : Ord EntityType := ⟨fun a b => compare a.wire b.wire⟩

theorem wire_injective {a b : EntityType} (h : a.wire = b.wire) : a = b := by
  cases a <;> cases b <;> first | rfl | cases h

instance : Std.TransOrd EntityType where
  eq_swap := Std.OrientedOrd.eq_swap (α := Nat)
  isLE_trans := Std.TransOrd.isLE_trans (α := Nat)

instance : Std.LawfulEqOrd EntityType where
  compare_self := Std.ReflOrd.compare_self (α := Nat)
  eq_of_compare h := wire_injective (Std.LawfulEqOrd.eq_of_compare (α := Nat) h)

end EntityType

/-- A positive number that stands for an identifier. -/
structure Handle where
  number : Nat
  pos : 0 < number
deriving DecidableEq

namespace Handle

/-- The handle of a number; zero is none. -/
def ofNat? (n : Nat) : Option Handle := if h : 0 < n then some ⟨n, h⟩ else none

/-- The first handle a table issues. -/
def first : Handle := ⟨1, Nat.one_pos⟩

/-- The handle after `h`. -/
def next (h : Handle) : Handle := ⟨h.number + 1, Nat.succ_pos _⟩

/-- The number of an optional handle on the bus, zero for none. -/
def numberOrZero (h : Option Handle) : Nat := h.elim 0 number

/-- A handle in messages and object paths. -/
def text (h : Handle) : String := toString h.number

instance : Repr Handle := ⟨fun h p => reprPrec h.number p⟩

instance : Inhabited Handle := ⟨first⟩

theorem ext {a b : Handle} (h : a.number = b.number) : a = b := by
  cases a
  cases b
  cases h
  rfl

theorem ofNat?_eq_some_iff {n : Nat} {h : Handle} : ofNat? n = some h ↔ n = h.number := by
  constructor
  · intro e
    unfold ofNat? at e
    split at e
    · cases e
      rfl
    · cases e
  · rintro rfl
    simp [ofNat?, h.pos]

instance : Ord Handle := ⟨fun a b => compare a.number b.number⟩

instance : Std.TransOrd Handle where
  eq_swap := Std.OrientedOrd.eq_swap (α := Nat)
  isLE_trans := Std.TransOrd.isLE_trans (α := Nat)

instance : Std.LawfulEqOrd Handle where
  compare_self := Std.ReflOrd.compare_self (α := Nat)
  eq_of_compare h := ext (Std.LawfulEqOrd.eq_of_compare (α := Nat) h)

end Handle

/-- A handle together with the entity type whose table issued it. -/
structure Reference where
  entity : EntityType
  handle : Handle
deriving DecidableEq, Repr

end Telepathy

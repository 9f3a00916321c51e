set_option autoImplicit false

/-!
# Addresses on the bus

Objects are reached by path, connections by a well-known name and clients by a unique name. All
three are texts that are compared as they are; a method call waiting for its reply has a number.
-/

namespace Telepathy

/-- The path of an object. -/
structure ObjectPath where
  text : String
deriving DecidableEq, Repr

/-- A well-known name. -/
structure BusName where
  text : String
deriving DecidableEq, Repr

/-- The unique name of a client. -/
structure ClientName where
  text : String
deriving DecidableEq, Repr

/-- A method call that waits for its reply. -/
structure CallId where
  number : Nat
deriving DecidableEq, Repr

namespace ObjectPath

/-- The path of a child object. -/
def child (p : ObjectPath) (segment : String) : ObjectPath := ⟨p.text ++ "/" ++ segment⟩

instance : Ord ObjectPath := ⟨fun a b => compare a.text b.text⟩

instance : Std.TransOrd ObjectPath where
  eq_swap := Std.OrientedOrd.eq_swap (α := String)
  isLE_trans := Std.TransOrd.isLE_trans (α := String)

instance : Std.LawfulEqOrd ObjectPath where
  compare_self := Std.ReflOrd.compare_self (α := String)
  eq_of_compare {a b} h := by
    cases a
    cases b
    cases Std.LawfulEqOrd.eq_of_compare (α := String) h
    rfl

end ObjectPath

namespace BusName

instance : Ord BusName := ⟨fun a b => compare a.text b.text⟩

instance : Std.TransOrd BusName where
  eq_swap := Std.OrientedOrd.eq_swap (α := String)
  isLE_trans := Std.TransOrd.isLE_trans (α := String)

instance : Std.LawfulEqOrd BusName where
  compare_self := Std.ReflOrd.compare_self (α := String)
  eq_of_compare {a b} h := by
    cases a
    cases b
    cases Std.LawfulEqOrd.eq_of_compare (α := String) h
    rfl

end BusName

namespace ClientName

instance : Ord ClientName := ⟨fun a b => compare a.text b.text⟩

instance : Std.TransOrd ClientName where
  eq_swap := Std.OrientedOrd.eq_swap (α := String)
  isLE_trans := Std.TransOrd.isLE_trans (α := String)

instance : Std.LawfulEqOrd ClientName where
  compare_self := Std.ReflOrd.compare_self (α := String)
  eq_of_compare {a b} h := by
    cases a
    cases b
    cases Std.LawfulEqOrd.eq_of_compare (α := String) h
    rfl

end ClientName

namespace CallId

/-- A call in messages. -/
def text (c : CallId) : String := s!"call#{c.number}"

end CallId

end Telepathy

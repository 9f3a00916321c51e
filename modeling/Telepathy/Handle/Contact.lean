import Telepathy.Handle.Tables
import Telepathy.Sorted.Set

set_option autoImplicit false

/-!
# Naming contacts

Whoever talks to a connection from outside names a contact by identifier or by number. Resolving a
name interns the identifier, or checks that the number is in use; of a list of names the first that
does not resolve is the failure of the whole list, and identifiers interned before it stay.
-/

namespace Telepathy

/-- A contact as named from outside. -/
inductive ContactName
  | id (id : String)
  | number (n : Nat)
deriving DecidableEq, Repr

/-- Why a name does not resolve. -/
inductive NameRefusal
  /-- Zero is no handle. -/
  | zero
  | handle (e : HandleError)
deriving DecidableEq, Repr

namespace HandleTable

/-- The handle of a named contact. -/
def resolve (t : HandleTable) : ContactName → Except NameRefusal Handle × HandleTable
  | .id id =>
    match t.intern id with
    | .ok (h, t) => (.ok h, t)
    | .error e => (.error (.handle e), t)
  | .number n =>
    match Handle.ofNat? n with
    | none => (.error .zero, t)
    | some h => ((t.hold h).mapError .handle, t)

/-- The handles of several named contacts, in the order of the names. -/
def resolveList (t : HandleTable) :
    List ContactName → Except NameRefusal (List Handle) × HandleTable
  | [] => (.ok [], t)
  | name :: names =>
    match t.resolve name with
    | (.error e, t) => (.error e, t)
    | (.ok h, t) =>
      let (rest, t) := t.resolveList names
      (rest.map (h :: ·), t)

/-- The set of several named contacts. -/
def resolveSet (t : HandleTable) (names : List ContactName) :
    Except NameRefusal (SortedSet Handle) × HandleTable :=
  let (handles, t) := t.resolveList names
  (handles.map .ofList, t)

/-- The handle of an optional contact. -/
def resolveOption (t : HandleTable) :
    Option ContactName → Except NameRefusal (Option Handle) × HandleTable
  | none => (.ok none, t)
  | some name =>
    let (h, t) := t.resolve name
    (h.map some, t)

end HandleTable

end Telepathy

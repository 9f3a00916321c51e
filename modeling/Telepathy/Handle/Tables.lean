import Telepathy.Handle.Table

set_option autoImplicit false

/-!
# The handle tables of a connection

A connection has a table of contacts, and tables of rooms, lists and groups if its protocol has
such things. A `Reference` says in which of them its handle was issued.
-/

namespace Telepathy

/-- The handle tables of one connection. -/
structure HandleTables where
  contact : HandleTable
  room : Option HandleTable
  list : Option HandleTable
  group : Option HandleTable

namespace HandleTables

/-- The table of an entity type, if there is one. -/
def get? (ts : HandleTables) : EntityType → Option HandleTable
  | .contact => some ts.contact
  | .room => ts.room
  | .list => ts.list
  | .group => ts.group
  | .none => Option.none

/-- The table of an entity type, or the failure that there is none. -/
def get (ts : HandleTables) (e : EntityType) : Except HandleError HandleTable :=
  match ts.get? e with
  | some t => .ok t
  | none => .error (.unsupportedEntity e)

/-- Changes the table of an entity type, if there is one. -/
def modify (ts : HandleTables) (e : EntityType) (f : HandleTable → HandleTable) : HandleTables :=
  match e with
  | .contact => { ts with contact := f ts.contact }
  | .room => { ts with room := ts.room.map f }
  | .list => { ts with list := ts.list.map f }
  | .group => { ts with group := ts.group.map f }
  | .none => ts

/-- Puts back a table that was read with `get`. -/
def set (ts : HandleTables) (e : EntityType) (t : HandleTable) : HandleTables :=
  ts.modify e fun _ => t

/-- The entity types that have a table. -/
def entities (ts : HandleTables) : List EntityType :=
  [.contact, .room, .list, .group].filter fun e => (ts.get? e).isSome

/-! ## Handles -/

/-- The identifier of a handle. -/
def inspect (ts : HandleTables) (r : Reference) : Option String :=
  (ts.get? r.entity).bind (·.inspect r.handle)

/-- Whether a handle is in use. -/
def isValid (ts : HandleTables) (r : Reference) : Bool :=
  (ts.get? r.entity).any (·.isValid r.handle)

/-- How many references are held on a handle. -/
def referencesTo (ts : HandleTables) (r : Reference) : Nat :=
  (ts.get? r.entity).elim 0 (·.referencesTo r.handle)

/-- The handle of `id`, issued if the table may do so by itself. -/
def ensure (ts : HandleTables) (e : EntityType) (id : String) :
    Except HandleError (Handle × HandleTables) := do
  let t ← ts.get e
  let (h, t) ← t.ensure id
  return (h, ts.set e t)

/-- The handle of `id`, issued if need be. -/
def intern (ts : HandleTables) (e : EntityType) (id : String) :
    Except HandleError (Handle × HandleTables) := do
  let t ← ts.get e
  let (h, t) ← t.intern id
  return (h, ts.set e t)

/-- Checks that a number from outside is a handle in use. -/
def hold (ts : HandleTables) (e : EntityType) (h : Handle) : Except HandleError Handle := do
  (← ts.get e).hold h

/-! ## References -/

/-- Counts one more reference. -/
def retain (ts : HandleTables) (r : Reference) : HandleTables :=
  ts.modify r.entity (·.retain r.handle)

/-- Counts one reference less. -/
def release (ts : HandleTables) (r : Reference) : HandleTables :=
  ts.modify r.entity (·.release r.handle)

/-- Counts one more reference for every element of a list. -/
def retainAll (ts : HandleTables) (rs : List Reference) : HandleTables := rs.foldl retain ts

/-- Counts one reference less for every element of a list. -/
def releaseAll (ts : HandleTables) (rs : List Reference) : HandleTables := rs.foldl release ts

/-- Counts the references taken on some contacts and given back on others. -/
def exchangeContacts (ts : HandleTables) (retained released : List Handle) : HandleTables :=
  { ts with contact := ts.contact.exchange retained released }

/-- Reclaims the handles without references in the table of one entity type. -/
def collectIn (ts : HandleTables) (e : EntityType) : Nat × HandleTables :=
  match ts.get? e with
  | some t => (t.collect.1, ts.set e t.collect.2)
  | none => (0, ts)

/-- Reclaims the handles without references in every table, and says how many these were. -/
def collect (ts : HandleTables) : Nat × HandleTables :=
  (((ts.entities.filterMap ts.get?).map (·.collect.1)).foldr (· + ·) 0,
    { contact := ts.contact.collect.2
      room := ts.room.map (·.collect.2)
      list := ts.list.map (·.collect.2)
      group := ts.group.map (·.collect.2) })

end HandleTables

end Telepathy

import Telepathy.Handle.Error
import Telepathy.Sorted.Map

set_option autoImplicit false

/-!
# Handle tables

A `HandleTable` interns the identifiers of one entity type: it issues a handle for each normalised
identifier and counts the references that are held on every handle it issued. A handle stays valid,
whatever its count, until `collect` reclaims the handles nobody holds; numbers are never issued
twice, so a number kept too long names nothing rather than somebody else.

The table keeps an index from identifiers to handles beside the entries of the handles.
-/

namespace Telepathy

/-- How a table treats identifiers it has not seen. -/
inductive Allocation
  /-- They get a handle at once. -/
  | onDemand
  /-- They are refused: the table knows all its identifiers from the start. -/
  | fixed
  /-- They have to be looked up remotely, and are interned afterwards. -/
  | afterLookup
deriving DecidableEq, Repr

/-- What a table knows of a handle. -/
structure HandleEntry where
  /-- The normalised identifier. -/
  id : String
  /-- How many references are held on the handle. -/
  references : Nat
deriving DecidableEq, Repr

/-- The handles of one entity type. -/
structure HandleTable where
  entity : EntityType
  allocation : Allocation
  /-- The canonical form of an identifier, or why it is not acceptable. -/
  normalise : String → Except String String
  /-- The handles in use. -/
  entries : SortedMap Handle HandleEntry
  /-- The handle of each normalised identifier. -/
  index : SortedMap String Handle
  /-- The handle to be issued next. -/
  next : Handle

namespace HandleTable

/-! ## Tables -/

/-- The normaliser that takes every identifier but the empty one as it is. -/
def verbatim (id : String) : Except String String :=
  if id = "" then .error "identifier is empty" else .ok id

/-- An empty table that issues handles on demand. -/
def withNormaliser (entity : EntityType) (normalise : String → Except String String) :
    HandleTable where
  entity
  allocation := .onDemand
  normalise
  entries := .empty
  index := .empty
  next := .first

/-- An empty table that takes every identifier but the empty one as it is. -/
def onDemand (entity : EntityType) : HandleTable := withNormaliser entity verbatim

/-- An empty table whose identifiers need a remote lookup. -/
def requiringLookup (entity : EntityType) : HandleTable :=
  { onDemand entity with allocation := .afterLookup }

/-- Issues the next handle to `id`. -/
def allocate (t : HandleTable) (id : String) : HandleTable :=
  { t with
    entries := t.entries.insert t.next ⟨id, 0⟩
    index := t.index.insert id t.next
    next := t.next.next }

/-- A table that knows exactly the identifiers `ids`. -/
def fixed (entity : EntityType) (ids : List String) : HandleTable :=
  { ids.foldl allocate (onDemand entity) with allocation := .fixed }

/-! ## Reading -/

/-- The identifier of a handle in use. -/
def inspect (t : HandleTable) (h : Handle) : Option String := (t.entries.get? h).map (·.id)

/-- Whether a handle is in use. -/
def isValid (t : HandleTable) (h : Handle) : Bool := t.entries.contains h

/-- How many references are held on a handle. -/
def referencesTo (t : HandleTable) (h : Handle) : Nat :=
  (t.entries.get? h).elim 0 (·.references)

/-- How many references are held in all. -/
def liveReferences (t : HandleTable) : Nat := (t.entries.values.map (·.references)).foldr (· + ·) 0

/-- The normalised form of `id`, with the table's own wording of a refusal. -/
def normalised (t : HandleTable) (id : String) : Except HandleError String :=
  (t.normalise id).mapError (.invalidIdentifier t.entity id)

/-- The handle of `id`, if it has one; nothing is issued. -/
def lookup (t : HandleTable) (id : String) : Option Handle :=
  match t.normalise id with
  | .ok id => t.index.get? id
  | .error _ => none

/-- Checks that a number from outside is a handle in use. -/
def hold (t : HandleTable) (h : Handle) : Except HandleError Handle :=
  if t.isValid h then .ok h else .error (.invalidHandle t.entity h.number)

/-! ## Issuing handles -/

/-- The refusal of an identifier that a fixed table does not know. -/
def unknown (t : HandleTable) (id : String) : HandleError :=
  .invalidIdentifier t.entity id "not a recognised name"

/-- The handle of `id`, issued if need be, even when it would need a lookup. -/
def intern (t : HandleTable) (id : String) : Except HandleError (Handle × HandleTable) := do
  let canonical ← t.normalised id
  match t.index.get? canonical with
  | some h => return (h, t)
  | none =>
    match t.allocation with
    | .fixed => throw (t.unknown id)
    | .onDemand | .afterLookup => return (t.next, t.allocate canonical)

/-- The handle of `id`, issued if the table may do so by itself. -/
def ensure (t : HandleTable) (id : String) : Except HandleError (Handle × HandleTable) := do
  let canonical ← t.normalised id
  match t.index.get? canonical with
  | some h => return (h, t)
  | none =>
    match t.allocation with
    | .fixed => throw (t.unknown id)
    -- The lookup is for the canonical form, not for what the caller wrote.
    | .afterLookup => throw (.lookupRequired t.entity canonical)
    | .onDemand => return (t.next, t.allocate canonical)

/-! ## References -/

/-- Counts one more reference on `h`. -/
def retain (t : HandleTable) (h : Handle) : HandleTable :=
  { t with entries := t.entries.modify h fun e => { e with references := e.references + 1 } }

/-- Counts one reference less on `h`. -/
def release (t : HandleTable) (h : Handle) : HandleTable :=
  { t with entries := t.entries.modify h fun e => { e with references := e.references - 1 } }

/-- Counts the references taken on some handles and given back on others. -/
def exchange (t : HandleTable) (retained released : List Handle) : HandleTable :=
  released.foldl release (retained.foldl retain t)

/-- Whether `collect` reclaims a handle with this entry. -/
def reclaimable (t : HandleTable) (e : HandleEntry) : Bool :=
  t.allocation != .fixed && e.references == 0

/-- Reclaims the handles without references, and says how many these were. A fixed table keeps all
its handles. -/
def collect (t : HandleTable) : Nat × HandleTable :=
  -- The index loses the identifiers of exactly the entries that go.
  let doomed := t.entries.filter fun _ e => t.reclaimable e
  (doomed.size,
    { t with
      entries := t.entries.filter fun _ e => !t.reclaimable e
      index := doomed.values.foldl (fun index e => index.erase e.id) t.index })

end HandleTable

end Telepathy

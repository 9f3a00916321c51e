import Telepathy.Answer
import Telepathy.Handle.Tables

set_option autoImplicit false

/-!
# References kept by name

A handle stays in use as long as somebody holds a reference on it. A `ReferenceStore` is such a
holder: it keeps references of any table under names, alone or gathered in sets, and every name and
every set member is counted once in the table of its handle. Taking a reference, giving it back and
moving it between sets are the operations of the store; `run` carries out a list of them.
-/

namespace Telepathy

/-- Single references by name. -/
abbrev KeptReferences := SortedMap String Reference

/-- A set of references with at most one of each number, as the entity type behind each handle. -/
abbrev ReferenceSet := SortedMap Handle EntityType

namespace ReferenceSet

/-- The references of a set, by ascending handle. -/
def references (s : ReferenceSet) : List Reference := s.toList.map fun e => ⟨e.2, e.1⟩

/-- Whether two sets share a handle. -/
def intersects (s t : ReferenceSet) : Bool := s.keys.any t.contains

end ReferenceSet

namespace HandleTables

/-- Keeps a new reference under a name; the one kept there before is given back. -/
def keep (ts : HandleTables) (kept : KeptReferences) (name : String) (r : Reference) :
    HandleTables × KeptReferences :=
  (((ts.retain r).releaseAll (kept.get? name).toList), kept.insert name r)

/-- Gives back the reference kept under a name. -/
def drop (ts : HandleTables) (kept : KeptReferences) (name : String) :
    HandleTables × KeptReferences :=
  (ts.releaseAll (kept.get? name).toList, kept.erase name)

end HandleTables

/-- Handle tables and the references somebody keeps in them. -/
structure ReferenceStore where
  tables : HandleTables
  kept : KeptReferences
  sets : SortedMap String ReferenceSet

namespace ReferenceStore

/-- A store that keeps nothing yet. -/
def ofTables (tables : HandleTables) : ReferenceStore := ⟨tables, .empty, .empty⟩

/-- The set of a name, empty if there is none. -/
def setNamed (s : ReferenceStore) (name : String) : ReferenceSet := (s.sets.get? name).getD .empty

/-- Replaces the set of a name. -/
def putSet (s : ReferenceStore) (name : String) (set : ReferenceSet) : ReferenceStore :=
  { s with sets := s.sets.insert name set }

/-- Makes sure that there is a set of this name. -/
def touchSet (s : ReferenceStore) (name : String) : ReferenceStore :=
  s.putSet name (s.setNamed name)

/-- Keeps a new reference under an optional name; without a name nothing is kept. -/
def keep (s : ReferenceStore) (name : Option String) (r : Reference) : ReferenceStore :=
  match name with
  | none => s
  | some name =>
    let (tables, kept) := s.tables.keep s.kept name r
    { s with tables, kept }

/-- Gives a new reference to a set, which keeps it if it has none of that number. -/
def insertIn (s : ReferenceStore) (name : String) (r : Reference) : ReferenceStore :=
  let set := s.setNamed name
  if set.contains r.handle then s.touchSet name
  else { s.putSet name (set.insert r.handle r.entity) with tables := s.tables.retain r }

/-- Moves a reference that is already counted into a set; it is given back if the set has one of
that number. -/
def moveIn (s : ReferenceStore) (name : String) (r : Reference) : ReferenceStore :=
  let set := s.setNamed name
  -- The reference is counted already, so keeping it changes no count.
  if set.contains r.handle then { s with tables := s.tables.release r }
  else s.putSet name (set.insert r.handle r.entity)

/-! ## Operations -/

/-- What a holder of references does. -/
inductive Operation
  /-- Asks the table of an entity type for the handle of an identifier. -/
  | ensure (entity : EntityType) (id : String) (keep : Option String)
  /-- The same, bypassing a remote lookup. -/
  | intern (entity : EntityType) (id : String) (keep : Option String)
  /-- Asks for the handle of an identifier, if it has one. -/
  | lookup (entity : EntityType) (id : String) (keep : Option String)
  /-- Takes a reference on a handle in use. -/
  | hold (entity : EntityType) (h : Handle) (keep : Option String)
  /-- Reclaims unreferenced handles of one table. -/
  | collect (entity : EntityType)
  /-- Reclaims unreferenced handles of all tables. -/
  | collectAll
  /-- Takes a second reference like the one kept under a name. -/
  | duplicate (source : String) (keep : Option String)
  /-- Gives back the reference kept under a name. -/
  | drop (name : String)
  /-- Puts a second reference like the one kept under `source` into a set. -/
  | setInsert (set source : String)
  /-- Gives back a member of a set. -/
  | setRemove (set : String) (h : Handle)
  /-- Reads a member of a set. -/
  | setGet (set : String) (h : Handle)
  /-- Asks for membership in a set. -/
  | setContains (set : String) (h : Handle)
  /-- Gives back all members of a set, and the set itself. -/
  | setDrop (set : String)
  /-- Moves all members of a set into another. -/
  | setMove (set target : String)
  /-- Makes `target` a copy of `set`. -/
  | setCopy (set target : String)
deriving Repr

/-- Why an operation is refused. -/
inductive Refusal
  | handle (e : HandleError)
  /-- No reference is kept under the name. -/
  | noSuchReference
deriving DecidableEq, Repr

/-- Keeps the reference for a handle that was asked for. -/
def obtain (s : ReferenceStore) (entity : EntityType) (keep : Option String) :
    Except HandleError (Handle × HandleTables) → Except Refusal Answer × ReferenceStore
  | .ok (h, tables) => (.ok (.handle h), { s with tables }.keep keep ⟨entity, h⟩)
  | .error e => (.error (.handle e), s)

/-- Carries out one operation. -/
def step (s : ReferenceStore) : Operation → Except Refusal Answer × ReferenceStore
  | .ensure entity id keep => s.obtain entity keep (s.tables.ensure entity id)
  | .intern entity id keep => s.obtain entity keep (s.tables.intern entity id)
  | .lookup entity id keep =>
    match s.tables.get entity with
    | .error e => (.error (.handle e), s)
    | .ok t =>
      match t.lookup id with
      | some h => (.ok (.handle h), s.keep keep ⟨entity, h⟩)
      | none => (.ok .nothing, s)
  | .hold entity h keep =>
    s.obtain entity keep ((s.tables.hold entity h).map fun h => (h, s.tables))
  | .collect entity =>
    match s.tables.get entity with
    | .error e => (.error (.handle e), s)
    | .ok _ =>
      let (n, tables) := s.tables.collectIn entity
      (.ok (.count n), { s with tables })
  | .collectAll =>
    let (n, tables) := s.tables.collect
    (.ok (.count n), { s with tables })
  | .duplicate source keep =>
    match s.kept.get? source with
    | none => (.error .noSuchReference, s)
    | some r => (.ok (.handle r.handle), s.keep keep r)
  | .drop name =>
    let (tables, kept) := s.tables.drop s.kept name
    (.ok (.flag (s.kept.contains name)), { s with tables, kept })
  | .setInsert set source =>
    match s.kept.get? source with
    | none => (.error .noSuchReference, s)
    | some r => (.ok (.flag !(s.setNamed set).contains r.handle), s.insertIn set r)
  | .setRemove set h =>
    match (s.setNamed set).get? h with
    | none => (.ok .nothing, s.touchSet set)
    | some entity =>
      (.ok (.handle h),
        { s.putSet set ((s.setNamed set).erase h) with tables := s.tables.release ⟨entity, h⟩ })
  | .setGet set h =>
    (.ok (.ofHandle? (((s.setNamed set).get? h).map fun _ => h)), s.touchSet set)
  | .setContains set h => (.ok (.flag ((s.setNamed set).contains h)), s.touchSet set)
  | .setDrop set =>
    (.ok (.flag (s.sets.contains set)),
      { s with
        tables := s.tables.releaseAll (s.setNamed set).references
        sets := s.sets.erase set })
  | .setMove set target =>
    let drained := (s.setNamed set).references
    -- The source is emptied first, so that a set moved into itself keeps its members.
    (.ok .nothing, drained.foldl (moveIn · target) ((s.putSet set .empty).touchSet target))
  | .setCopy set target =>
    let copied := s.setNamed set
    let tables := s.tables.retainAll copied.references
    let tables := tables.releaseAll (s.setNamed target).references
    (.ok .nothing, { (s.touchSet set).putSet target copied with tables })

/-- Carries out a list of operations. -/
def run (s : ReferenceStore) (ops : List Operation) : ReferenceStore :=
  ops.foldl (fun s op => (s.step op).2) s

end ReferenceStore

end Telepathy

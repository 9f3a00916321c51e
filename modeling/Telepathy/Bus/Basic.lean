import Telepathy.Bus.Address
import Telepathy.Error
import Telepathy.Sorted.Map
import Telepathy.Sorted.Set

set_option autoImplicit false

/-!
# The bus

What the bus knows of everybody on it, as far as a connection depends on it: which objects are
exported with which interfaces, which well-known names have an owner, and which clients are watched.
A path or a name belongs to whoever came first.
-/

namespace Telepathy

/-- The state of the bus. -/
structure Bus where
  /-- The interfaces of every exported object. -/
  objects : SortedMap ObjectPath (List String)
  /-- The well-known names that have an owner. -/
  names : SortedSet BusName
  /-- The clients whose presence is watched. -/
  watched : SortedSet ClientName
deriving DecidableEq

/-- Why the bus refuses something. -/
inductive BusRefusal
  /-- The object cannot be exported. -/
  | registration (path message : String)
  /-- The name cannot be claimed. -/
  | nameUnavailable (name message : String)
deriving DecidableEq, Repr

namespace BusRefusal

/-- The text of a refusal. -/
def message : BusRefusal → String
  | registration path reason => s!"failed to register object at {path}: {reason}"
  | nameUnavailable name reason => s!"failed to claim bus name {name}: {reason}"

/-- The error a client sees. -/
def toError (r : BusRefusal) : Error := ⟨.notAvailable, r.message⟩

/-- The refusal of a path that is in use. -/
def pathTaken (path : ObjectPath) : BusRefusal := registration path.text "path already exported"

/-- The refusal of a name that has an owner. -/
def nameTaken (name : BusName) : BusRefusal := nameUnavailable name.text "name already owned"

end BusRefusal

namespace Bus

/-- A bus without anybody on it. -/
def empty : Bus := ⟨.empty, .empty, .empty⟩

/-- Whether an object is exported at a path. -/
def isExported (b : Bus) (path : ObjectPath) : Bool := b.objects.contains path

/-- Exports an object. -/
def exportObject (b : Bus) (path : ObjectPath) (interfaces : List String) :
    Except BusRefusal Bus :=
  if b.isExported path then .error (.pathTaken path)
  else .ok { b with objects := b.objects.insert path interfaces }

/-- Takes an object back. -/
def withdrawObject (b : Bus) (path : ObjectPath) : Bus :=
  { b with objects := b.objects.erase path }

/-- Claims a name. -/
def claimName (b : Bus) (name : BusName) : Except BusRefusal Bus :=
  if name ∈ b.names then .error (.nameTaken name)
  else .ok { b with names := b.names.insert name }

/-- Gives a name up. -/
def releaseName (b : Bus) (name : BusName) : Bus := { b with names := b.names.erase name }

/-- Watches a client. -/
def watch (b : Bus) (client : ClientName) : Bus :=
  { b with watched := b.watched.insert client }

/-- Watches a client no longer. -/
def unwatch (b : Bus) (client : ClientName) : Bus :=
  { b with watched := b.watched.erase client }

end Bus

end Telepathy

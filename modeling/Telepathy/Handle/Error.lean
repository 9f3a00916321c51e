import Telepathy.Error
import Telepathy.Handle.Basic

set_option autoImplicit false

/-!
# Failures of handle tables

Why a handle table refuses an identifier or a number, how that reads, and which error a client sees.
-/

namespace Telepathy

/-- Why a handle table gave no handle. -/
inductive HandleError
  /-- The identifier is not acceptable, or not known to a table with fixed identifiers. -/
  | invalidIdentifier (entity : EntityType) (id reason : String)
  /-- The number is not a handle in use. -/
  | invalidHandle (entity : EntityType) (number : Nat)
  /-- The identifier has to be looked up remotely first. -/
  | lookupRequired (entity : EntityType) (id : String)
  /-- The connection has no handles of this entity type. -/
  | unsupportedEntity (entity : EntityType)
deriving DecidableEq, Repr

namespace HandleError

/-- The text of a failure. -/
def message : HandleError → String
  | invalidIdentifier entity id reason => s!"invalid {entity.name} identifier '{id}': {reason}"
  | invalidHandle entity number => s!"{entity.name} handle {number} is not valid"
  | lookupRequired entity id => s!"{entity.name} identifier '{id}' needs a remote lookup"
  | unsupportedEntity entity => s!"handle type {entity.name} is not supported by this connection"

/-- The kind of error a client sees. -/
def kind : HandleError → ErrorKind
  | unsupportedEntity _ => .notImplemented
  | lookupRequired _ _ => .notAvailable
  | invalidIdentifier _ _ _ | invalidHandle _ _ => .invalidHandle

/-- The error a client sees. -/
def toError (e : HandleError) : Error := ⟨e.kind, e.message⟩

end HandleError

end Telepathy

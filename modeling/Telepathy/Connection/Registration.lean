import Telepathy.Connection.Basic

set_option autoImplicit false

/-!
# Registering on the bus

A connection is on the bus when it owns its well-known name and exports its object. Registering
claims first the name and then the path; if the path is taken, the name is given back, so that in
the end the connection owns both or neither.
-/

namespace Telepathy.Connection

variable {σ ρ : Type}

/-- The interfaces of every connection object. -/
def coreInterfaces : List String :=
  ["org.freedesktop.Telepathy.Connection",
    "org.freedesktop.Telepathy.Connection.Interface.Requests"]

/-- The interfaces of the connection object. -/
def interfaces (c : Connection σ ρ) : List String := coreInterfaces ++ c.backend.interfaces

/-- Registers the connection on the bus. -/
def register (c : Connection σ ρ) : Except Error Unit × Connection σ ρ :=
  match c.config.validate with
  | .error e => (.error e, c)
  | .ok () =>
    match c.bus.claimName c.names.busName with
    | .error r => (.error r.toError, c.record [.nameClaimed c.names.busName false])
    | .ok bus =>
      let c := c.record [.nameClaimed c.names.busName true]
      match bus.exportObject c.names.path c.interfaces with
      | .error r =>
        -- The name was claimed just now, so it is the connection's to give back.
        (.error r.toError,
          { c with bus := bus.releaseName c.names.busName }.record
            [.objectExported c.names.path c.interfaces false, .nameReleased c.names.busName])
      | .ok bus =>
        (.ok (),
          { c with bus, registered := true }.record
            [.objectExported c.names.path c.interfaces true])

/-! ## Others on the bus -/

/-- Somebody else claims the connection's name. -/
def loseName (c : Connection σ ρ) : Except BusRefusal Unit × Connection σ ρ :=
  match c.bus.claimName c.names.busName with
  | .error r => (.error r, c.record [.nameClaimed c.names.busName false])
  | .ok bus => (.ok (), { c with bus }.record [.nameClaimed c.names.busName true])

/-- Somebody else exports an object at the connection's path. -/
def losePath (c : Connection σ ρ) : Except BusRefusal Unit × Connection σ ρ :=
  match c.bus.exportObject c.names.path [] with
  | .error r => (.error r, c.record [.objectExported c.names.path [] false])
  | .ok bus => (.ok (), { c with bus }.record [.objectExported c.names.path [] true])

end Telepathy.Connection

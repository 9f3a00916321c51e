import Telepathy.Connection.Lifecycle
import Telepathy.Connection.Registration
import Telepathy.Connection.Serving
import Telepathy.Handle.Contact

set_option autoImplicit false

/-!
# Runs of a connection

An `Operation` is one thing that happens to a connection from outside: a call by a client, a message
of the backend, a report of a manager, a notice of a contact server, or something on the bus.
`Connection.step` carries out one, and `Connection.run` a list of them, which is what the laws about
connections are stated for.
-/

namespace Telepathy

/-- What happens to a connection. -/
inductive Operation (σ ρ : Type)
  | register
  | connect
  /-- A client asks to disconnect. -/
  | disconnect (call : CallId)
  /-- The backend has torn down what it had. -/
  | finishShutdown
  | changeStatus (status : Status) (reason : StatusReason)
  /-- The local user's contact is found out. -/
  | setSelf (contact : ContactName)
  /-- A client requests a channel. -/
  | request (call : CallId) (method : RequestMethod) (properties : PropertyMap)
  /-- A lookup has found its target, named as in the table of `entity`. -/
  | lookupFound (ticket : LookupTicket) (entity : EntityType) (target : ContactName)
  /-- A lookup has failed. -/
  | lookupFailed (ticket : LookupTicket) (e : Error)
  /-- A lookup is given up. -/
  | cancelLookup (ticket : LookupTicket)
  | addInterest (client : ClientName) (tokens : List String)
  | removeInterest (client : ClientName) (tokens : List String)
  | clientVanished (client : ClientName)
  /-- Somebody interns an identifier and may keep a reference under a name. -/
  | intern (entity : EntityType) (id : String) (keep : Option String)
  /-- Somebody gives back the reference kept under a name. -/
  | drop (name : String)
  /-- Handles that nobody holds are reclaimed. -/
  | collect
  /-- A manager reports. -/
  | report (r : Report)
  /-- Somebody else claims the connection's name. -/
  | loseName
  /-- Somebody else exports an object at the connection's path. -/
  | losePath
  /-- The state of an application's own manager changes by itself. -/
  | changeManager (seat : Nat) (f : σ → σ)
  /-- The data of a contact server change by themselves, in a way that concerns some contacts. -/
  | changeServer (seat : Nat) (contacts : List ContactName) (f : SortedSet Handle → ρ → ρ)
  /-- Something happens to a contact list. -/
  | contacts (seat : Nat) (op : ContactOperation (List ContactName))

/-- Why an operation is refused. -/
inductive Refusal
  | name (r : NameRefusal)
  | handle (e : HandleError)
  | transition (e : TransitionError)
  | bus (r : BusRefusal)
  /-- A client would see this error. -/
  | error (e : Error)
  /-- There is no such manager, or it is of the wrong kind. -/
  | noSuchManager
deriving DecidableEq, Repr

/-- The outcome of an operation that ran to completion. -/
abbrev StepOutcome (σ ρ : Type) := Except Refusal Answer × Connection σ ρ

namespace Connection

variable {σ ρ : Type}

/-- An outcome without failure. -/
def quietly (c : Connection σ ρ) : StepOutcome σ ρ := (.ok .nothing, c)

/-- An outcome whose failure is the one of a part of the operation. -/
def following {ε : Type} (refusal : ε → Refusal) (outcome : Except ε Unit × Connection σ ρ) :
    StepOutcome σ ρ :=
  ((outcome.1.mapError refusal).map fun _ => .nothing, outcome.2)

/-- Resolves a contact of the contact table. -/
def resolveContact (c : Connection σ ρ) (name : ContactName) :
    Except NameRefusal Handle × Connection σ ρ :=
  let (h, contact) := c.tables.contact.resolve name
  (h, { c with tables := { c.tables with contact } })

/-- The local user's contact is found out. -/
def nameSelf (c : Connection σ ρ) (name : ContactName) : StepOutcome σ ρ :=
  match c.resolveContact name with
  | (.error e, c) => (.error (.name e), c)
  | (.ok h, c) => (c.setSelf h).quietly

/-- A lookup has found its target. -/
def completeLookup (c : Connection σ ρ) (ticket : LookupTicket) (entity : EntityType)
    (name : ContactName) : Except Crash (StepOutcome σ ρ) :=
  match c.tables.get entity with
  | .error e => .ok (.error (.handle e), c)
  | .ok t =>
    let (found, t) := t.resolve name
    let c := { c with tables := c.tables.set entity t }
    match found with
    | .error e => .ok (.error (.name e), c)
    | .ok h => (c.resumeLookup ticket h).map (following .error)

/-- Interns an identifier, and keeps a reference on its handle if it is given a name. -/
def internKept (c : Connection σ ρ) (entity : EntityType) (id : String) (keep : Option String) :
    StepOutcome σ ρ :=
  match c.tables.intern entity id with
  | .error e => (.error (.handle e), c)
  | .ok (h, tables) =>
    match keep with
    | none => (.ok (.handle h), { c with tables })
    | some name =>
      let (tables, kept) := tables.keep c.kept name ⟨entity, h⟩
      (.ok (.handle h), { c with tables, kept })

/-- Gives back a reference that was kept. -/
def dropKept (c : Connection σ ρ) (name : String) : StepOutcome σ ρ :=
  let (tables, kept) := c.tables.drop c.kept name
  (.ok (.flag (c.kept.contains name)), { c with tables, kept })

/-- Lets the state of an application's own manager change. -/
def changeManager (c : Connection σ ρ) (seat : Nat) (f : σ → σ) :
    Except Crash (StepOutcome σ ρ) :=
  match c.managers[seat]?.bind (·.changeState? c.tables f) with
  | none => .ok (.error .noSuchManager, c)
  | some turn => (c.takeTurn seat turn).map quietly

/-- The contact list at a seat. -/
def contactListAt (c : Connection σ ρ) (seat : Nat) : Option (Manager σ ρ) :=
  c.managers[seat]?.filter fun m => !m.isCustom

/-- Lets the data of a contact server change, in a way that concerns some contacts. -/
def changeServer (c : Connection σ ρ) (seat : Nat) (names : List ContactName)
    (f : SortedSet Handle → ρ → ρ) : Except Crash (StepOutcome σ ρ) :=
  match c.contactListAt seat with
  | none => .ok (.error .noSuchManager, c)
  | some m =>
    let (contacts, contact) := c.tables.contact.resolveSet names
    let c := { c with tables := { c.tables with contact } }
    match contacts with
    | .error e => .ok (.error (.name e), c)
    | .ok contacts =>
      match m.changeServer? c.tables (f contacts) with
      | none => .ok (.error .noSuchManager, c)
      | some turn => (c.takeTurn seat turn).map quietly

/-- Lets something happen to a contact list. -/
def performContacts (c : Connection σ ρ) (seat : Nat)
    (op : ContactOperation (List ContactName)) : Except Crash (StepOutcome σ ρ) :=
  match c.contactListAt seat with
  | none => .ok (.error .noSuchManager, c)
  | some m =>
    let (op, contact) := op.resolve c.tables.contact
    let c := { c with tables := { c.tables with contact } }
    match op with
    | .error e => .ok (.error (.name e), c)
    | .ok op =>
      match m.performContacts? c.tables op with
      | none => .ok (.error .noSuchManager, c)
      | some (outcome, turn) =>
        (c.takeTurn seat turn).map fun c => following .error (outcome, c)

/-- Carries out one operation. -/
def step (c : Connection σ ρ) : Operation σ ρ → Except Crash (StepOutcome σ ρ)
  | .register => .ok (following .error c.register)
  | .connect => c.connect.map (following .error)
  | .disconnect call => (c.disconnect call).map quietly
  | .finishShutdown => .ok c.finishShutdown.quietly
  | .changeStatus status reason => (c.changeStatus status reason).map (following .transition)
  | .setSelf contact => .ok (c.nameSelf contact)
  | .request call method properties => (c.request call method properties).map quietly
  | .lookupFound ticket entity target => c.completeLookup ticket entity target
  | .lookupFailed ticket e => .ok (following .error (c.failLookup ticket e))
  | .cancelLookup ticket => .ok (following .error (c.cancelLookup ticket))
  | .addInterest client tokens => .ok (following .error (c.addInterest client tokens))
  | .removeInterest client tokens => .ok (c.removeInterest client tokens).quietly
  | .clientVanished client => .ok (c.clientVanished client).quietly
  | .intern entity id keep => .ok (c.internKept entity id keep)
  | .drop name => .ok (c.dropKept name)
  | .collect => .ok (.ok (.count c.collect.1), c.collect.2)
  | .report r => (c.settle r).map quietly
  | .loseName => .ok (following .bus c.loseName)
  | .losePath => .ok (following .bus c.losePath)
  | .changeManager seat f => c.changeManager seat f
  | .changeServer seat contacts f => c.changeServer seat contacts f
  | .contacts seat op => c.performContacts seat op

/-- Carries out a list of operations. -/
def run (c : Connection σ ρ) (ops : List (Operation σ ρ)) : Except Crash (Connection σ ρ) :=
  ops.foldlM (fun c op => (c.step op).map Prod.snd) c

end Connection

end Telepathy

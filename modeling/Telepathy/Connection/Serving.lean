import Telepathy.Connection.Basic

set_option autoImplicit false

/-!
# Serving channel requests

A request passes through three stages: its form is checked, its target is found in the handle
tables, and it is offered to the managers in order until one accepts. A target that needs a remote
lookup parks the request between the second stage and the third. Whatever goes wrong before a
manager accepts is answered at once.
-/

namespace Telepathy.Connection

variable {σ ρ : Type}

/-! ## Offering -/

/-- Offers a request to the manager at `seat`. -/
def offerAt (c : Connection σ ρ) (r : ChannelRequest) (seat : Nat) :
    Except Crash (Offer × Connection σ ρ) :=
  match c.managers[seat]? with
  | none => .ok (.declined, c)
  | some m =>
    let (offer, turn) := m.offer c.tables r
    ((c.record [.offered seat r]).takeTurn seat turn).map fun c => (offer, c)

/-- Offers a request to the managers at several seats, up to the first that accepts. -/
def offerTo (r : ChannelRequest) :
    List Nat → Connection σ ρ → Except Crash (Offer × Connection σ ρ)
  | [], c => .ok (.declined, c)
  | seat :: seats, c => do
    match ← c.offerAt r seat with
    | (.accepted, c) => return (.accepted, c)
    | (.declined, c) => offerTo r seats c

/-- Answers a request that nobody accepted, unless it was answered already. -/
def refuse (c : Connection σ ρ) (r : ChannelRequest) : Connection σ ρ :=
  match c.ledger.claim r.token with
  | .error _ => c
  | .ok (p, ledger) =>
    { c with ledger, tables := c.tables.releaseAll p.target.toList }.answer p.call
      (.failed ⟨.notImplemented, s!"unsupported channel type {r.channelType}"⟩)

/-- Puts a request with a known target in flight, and offers it to the managers. -/
def present (c : Connection σ ρ) (call : CallId) (r : ValidRequest) (target : Option Handle) :
    Except Crash (Connection σ ρ) := do
  let reference := target.map (Reference.mk r.entity)
  let request :=
    ChannelRequest.new c.ledger.nextToken r target (reference.bind c.tables.inspect)
  let c :=
    { c with
      ledger := c.ledger.track ⟨call, r.method, reference⟩
      tables := c.tables.retainAll reference.toList }
  -- The request is in flight by now, so a manager may report on it while it is asked.
  match ← c.offerTo request c.seats with
  | (.accepted, c) => return c
  | (.declined, c) => return c.refuse request

/-! ## Lookups -/

/-- What the caller of a request is told if the ticket names no parked request. -/
def staleTicket (ticket : LookupTicket) : Error :=
  ⟨.notAvailable, s!"{ticket.text} is not pending"⟩

/-- Fails the request parked on a ticket. -/
def failLookup (c : Connection σ ρ) (ticket : LookupTicket) (e : Error) :
    Except Error Unit × Connection σ ρ :=
  match c.ledger.unpark? ticket with
  | none => (.error (staleTicket ticket), c)
  | some (p, ledger) => (.ok (), { c with ledger }.answer p.call (.failed e))

/-- Gives up the lookup of a ticket. -/
def cancelLookup (c : Connection σ ρ) (ticket : LookupTicket) :
    Except Error Unit × Connection σ ρ :=
  c.failLookup ticket ⟨.cancelled, "identifier lookup was cancelled"⟩

/-- Goes on with the request parked on a ticket, whose target turned out to be `h`. -/
def resumeLookup (c : Connection σ ρ) (ticket : LookupTicket) (h : Handle) :
    Except Crash (Except Error Unit × Connection σ ρ) := do
  match c.ledger.unpark? ticket with
  | none => return (.error (staleTicket ticket), c)
  | some (p, ledger) =>
    let c ← { c with ledger }.present p.call p.request (some h)
    return (.ok (), c)

/-- Parks a request and asks the backend to look its target up. -/
def beginLookup (c : Connection σ ρ) (call : CallId) (r : ValidRequest) (entity : EntityType)
    (id : String) : Connection σ ρ :=
  let ticket := c.ledger.nextTicket
  let c :=
    { c with ledger := c.ledger.park ⟨call, r⟩ }.record [.lookup ticket entity id]
  -- A backend that refuses at once ends the lookup like one that fails later.
  match c.backend.lookupFailure ticket entity id with
  | none => c
  | some e => (c.failLookup ticket e).2

/-! ## Requests -/

/-- Finds the target of a request, which may issue a handle to its identifier. -/
def findTarget (c : Connection σ ρ) (r : ValidRequest) :
    Except HandleError (Option Handle × HandleTables) :=
  match r.target with
  | .none => .ok (none, c.tables)
  | .handle h => (c.tables.hold r.entity h).map fun h => (some h, c.tables)
  | .id id => (c.tables.ensure r.entity id).map fun (h, tables) => (some h, tables)

/-- Serves a well-formed request. -/
def submit (c : Connection σ ρ) (call : CallId) (r : ValidRequest) :
    Except Crash (Connection σ ρ) :=
  match c.findTarget r with
  | .ok (target, tables) => { c with tables }.present call r target
  | .error (.lookupRequired entity id) => .ok (c.beginLookup call r entity id)
  | .error e => .ok (c.answer call (.failed e.toError))

/-- Serves a request. -/
def request (c : Connection σ ρ) (call : CallId) (method : RequestMethod)
    (properties : PropertyMap) : Except Crash (Connection σ ρ) :=
  if c.status = .connected then
    match properties.validate method with
    | .ok r => c.submit call r
    | .error m => .ok (c.answer call (.failed m.toError))
  else .ok (c.answer call (.failed .notConnected))

end Telepathy.Connection

import Telepathy.Connection.Basic

set_option autoImplicit false

/-!
# The life of a connection

Every change of status is signalled first; then the backend's hook is called, and then each manager
is told. When a connection becomes disconnected, all requests fail, the local user and the interests
of clients are forgotten, and the backend tears down. Once that is over, the connection leaves the
bus, answers those who asked to disconnect, and reclaims handles.
-/

namespace Telepathy.Connection

variable {σ ρ : Type}

/-! ## Leaving -/

/-- What the callers of requests are told when the connection goes away. -/
def leaving : Error :=
  ⟨.disconnected, "unable to service this channel request, we're disconnecting!"⟩

/-- Fails all requests that are not answered: the parked ones by ticket, then those in flight by
token. -/
def failOutstanding (c : Connection σ ρ) : Connection σ ρ :=
  { c with
    ledger := c.ledger.clear
    tables := c.tables.releaseAll c.ledger.holds }.record
    (c.ledger.calls.map fun call => .answered call (.failed leaving))

/-- Gives back the local user's handle. -/
def forgetSelf (c : Connection σ ρ) : Connection σ ρ :=
  { c with self := none, tables := c.tables.exchangeContacts [] c.self.toList }

/-- Forgets the interests of all clients, and watches nobody any longer. -/
def forgetInterests (c : Connection σ ρ) : Connection σ ρ :=
  let (interests, clients) := c.interests.clear
  { c with interests, bus := clients.foldl Bus.unwatch c.bus }.record (clients.map .unwatched)

/-- Leaves the bus, if the connection is on it. -/
def withdraw (c : Connection σ ρ) : Connection σ ρ :=
  if c.registered then
    { c with
      registered := false
      bus := (c.bus.withdrawObject c.names.path).releaseName c.names.busName }.record
      [.objectWithdrawn c.names.path, .nameReleased c.names.busName]
  else c

/-- Answers those who asked to disconnect. -/
def answerDisconnects (c : Connection σ ρ) : Connection σ ρ :=
  { c with disconnectCalls := [] }.record
    (c.disconnectCalls.map fun call => .answered call (.returned .done))

/-- Reclaims the handles nobody holds, and says how many these were. -/
def collect (c : Connection σ ρ) : Nat × Connection σ ρ :=
  (c.tables.collect.1, { c with tables := c.tables.collect.2 })

/-- The shutdown is over. This counts once, and only when the connection is disconnected. -/
def finishShutdown (c : Connection σ ρ) : Connection σ ρ :=
  if c.status = .disconnected ∧ c.shutDown = false then
    ({ c with shutDown := true }.withdraw.answerDisconnects).collect.2
  else c

/-- Has the backend tear down. -/
def shutDownBackend (c : Connection σ ρ) : Connection σ ρ :=
  let c := c.record [.hook .shutDown]
  if c.backend.defersShutdown then c else c.finishShutdown

/-- What becoming disconnected means for the connection itself. -/
def tearDown (c : Connection σ ρ) : Connection σ ρ :=
  c.failOutstanding.forgetSelf.forgetInterests.shutDownBackend

/-! ## Changing the status -/

/-- The hook for a new status; a connection that never tried to connect is not told that it is
disconnected. -/
def hookFor (source target : Status) : Option Hook :=
  match source, target with
  | _, .connecting => some .connecting
  | _, .connected => some .connected
  | .new, .disconnected => none
  | _, .disconnected => some .disconnected
  | _, .new => none

/-- Tells the manager at `seat` of a status. -/
def notifyAt (status : Status) (c : Connection σ ρ) (seat : Nat) :
    Except Crash (Connection σ ρ) :=
  match c.managers[seat]? with
  | none => .ok c
  | some m =>
    (c.record [.notified seat status]).takeTurn seat (m.statusChanged c.tables status)

/-- Enters a status. -/
def enter (c : Connection σ ρ) (status : Status) (reason : StatusReason) :
    Except Crash (Connection σ ρ) := do
  let changed := { c with status }.emit (.statusChanged status reason)
  -- The hook depends on the status that was left.
  let hooked := changed.record ((hookFor c.status status).toList.map .hook)
  let told ← c.seats.foldlM (notifyAt status) hooked
  return if status = .disconnected then told.tearDown else told

/-- Whether the local user's handle is known and in use. -/
def hasValidSelf (c : Connection σ ρ) : Bool := c.self.any c.tables.contact.isValid

/-- How to get to a status, or why not. -/
def checkChange (c : Connection σ ρ) (status : Status) : Except TransitionError Route := do
  let route ← c.status.route status
  if status = .connected ∧ route ≠ .stay ∧ c.hasValidSelf = false then
    throw .missingSelfHandle
  return route

/-- Changes the status. -/
def changeStatus (c : Connection σ ρ) (status : Status) (reason : StatusReason) :
    Except Crash (Except TransitionError Unit × Connection σ ρ) := do
  match c.checkChange status with
  | .error e => return (.error e, c)
  | .ok .stay => return (.ok (), c)
  | .ok .direct => return (.ok (), ← c.enter status reason)
  | .ok .viaConnecting =>
    let c ← c.enter .connecting reason
    return (.ok (), ← c.enter .connected reason)

/-- Starts to connect. This does something only for a new connection; if the backend fails to start,
the connection is disconnected. -/
def connect (c : Connection σ ρ) : Except Crash (Except Error Unit × Connection σ ρ) := do
  if c.status ≠ .new then return (.ok (), c)
  let c := c.record [.hook .startConnecting]
  match c.backend.startFailure with
  | some e =>
    let (_, c) ← c.changeStatus .disconnected e.statusReason
    return (.error e, c)
  | none =>
    let (outcome, c) ← c.changeStatus .connecting .requested
    return (outcome.mapError TransitionError.toError, c)

/-- A client asks to disconnect; it is answered when the shutdown is over. -/
def disconnect (c : Connection σ ρ) (call : CallId) : Except Crash (Connection σ ρ) := do
  if c.shutDown then return c.answer call (.returned .done)
  -- The call waits before the status changes, since the shutdown may be over at once.
  let c := { c with disconnectCalls := c.disconnectCalls ++ [call] }
  if c.status = .disconnected then return c
  let (_, c) ← c.changeStatus .disconnected .requested
  return c

/-! ## The local user -/

/-- Sets the local user's handle. Clients are told of a change while the connection is connected;
once it is disconnected the handle is of no interest. -/
def setSelf (c : Connection σ ρ) (h : Handle) : Connection σ ρ :=
  if c.status = .disconnected then c
  else
    let next :=
      { c with self := some h, tables := c.tables.exchangeContacts [h] c.self.toList }
    -- The reference is exchanged even if the handle is the same; clients are told only of news.
    if c.self ≠ some h ∧ c.status = .connected then
      next.emit (.selfContactChanged h ((c.tables.contact.inspect h).getD ""))
    else next

/-! ## Interests -/

/-- What a change of interest means for watching a client. -/
def watchAs (c : Connection σ ρ) (client : ClientName) : Watch → Connection σ ρ
  | .keep => c
  | .start => { c with bus := c.bus.watch client }.record [.watched client]
  | .stop => { c with bus := c.bus.unwatch client }.record [.unwatched client]

/-- The hook for a token that became wanted or unwanted. -/
def interestHook : InterestTransition → Hook
  | .interested token => .interested token
  | .uninterested token => .uninterested token

/-- Takes over a change of interest. -/
def applyInterest (c : Connection σ ρ) (client : ClientName)
    (change : InterestTable × InterestUpdate) : Connection σ ρ :=
  ({ c with interests := change.1 }.watchAs client change.2.watch).record
    (change.2.transitions.map fun t => .hook (interestHook t))

/-- A client declares interest. -/
def addInterest (c : Connection σ ρ) (client : ClientName) (tokens : List String) :
    Except Error Unit × Connection σ ρ :=
  if c.status = .disconnected then (.error .notConnected, c)
  else (.ok (), c.applyInterest client (c.interests.add client tokens))

/-- A client withdraws interest. -/
def removeInterest (c : Connection σ ρ) (client : ClientName) (tokens : List String) :
    Connection σ ρ :=
  c.applyInterest client (c.interests.remove client tokens)

/-- A client left the bus. -/
def clientVanished (c : Connection σ ρ) (client : ClientName) : Connection σ ρ :=
  c.applyInterest client (c.interests.vanish client)

end Telepathy.Connection

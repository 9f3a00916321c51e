import Telepathy.Bus.Address
import Telepathy.Request.Basic
import Telepathy.Sorted.Map

set_option autoImplicit false

/-!
# Requests that are not answered yet

A request waits in one of two places: parked on a ticket while its target is looked up, or in flight
under a token while a channel manager works on it. The `RequestLedger` keeps both, and issues
tickets and tokens by counting, so that none is issued twice.
-/

namespace Telepathy

/-- A request in flight. -/
structure PendingRequest where
  call : CallId
  method : RequestMethod
  /-- The target, held as long as the request is in flight. -/
  target : Option Reference
deriving DecidableEq, Repr

/-- A request whose target is being looked up. -/
structure ParkedRequest where
  call : CallId
  request : ValidRequest
deriving DecidableEq

/-- The requests of a connection that are not answered yet. -/
structure RequestLedger where
  /-- How many tokens were issued. -/
  tokens : Nat
  /-- How many tickets were issued. -/
  tickets : Nat
  inFlight : SortedMap RequestToken PendingRequest
  parked : SortedMap LookupTicket ParkedRequest
deriving DecidableEq

namespace RequestLedger

/-- A ledger without requests. -/
def empty : RequestLedger := ⟨0, 0, .empty, .empty⟩

/-- How many requests are not answered yet. -/
def outstanding (l : RequestLedger) : Nat := l.inFlight.size + l.parked.size

/-- Whether a request is in flight. -/
def isPending (l : RequestLedger) (token : RequestToken) : Bool := l.inFlight.contains token

/-- The token to be issued next. -/
def nextToken (l : RequestLedger) : RequestToken := ⟨l.tokens + 1⟩

/-- The ticket to be issued next. -/
def nextTicket (l : RequestLedger) : LookupTicket := ⟨l.tickets + 1⟩

/-- Puts a request in flight under the next token. -/
def track (l : RequestLedger) (p : PendingRequest) : RequestLedger :=
  { l with tokens := l.tokens + 1, inFlight := l.inFlight.insert l.nextToken p }

/-- Parks a request on the next ticket. -/
def park (l : RequestLedger) (p : ParkedRequest) : RequestLedger :=
  { l with tickets := l.tickets + 1, parked := l.parked.insert l.nextTicket p }

/-- Takes the request of a ticket, if one is parked there. -/
def unpark? (l : RequestLedger) (ticket : LookupTicket) : Option (ParkedRequest × RequestLedger) :=
  (l.parked.get? ticket).map fun p => (p, { l with parked := l.parked.erase ticket })

/-- Takes the request of a token; that it is in flight is promised by whoever reports on it. -/
def claim (l : RequestLedger) (token : RequestToken) :
    Except Fault (PendingRequest × RequestLedger) :=
  match l.inFlight.get? token with
  | none => .error (.notInFlight token)
  | some p => .ok (p, { l with inFlight := l.inFlight.erase token })

/-- Takes the requests of several tokens, in their order. -/
def claimAll (l : RequestLedger) :
    List RequestToken → Except Fault (List PendingRequest × RequestLedger)
  | [] => .ok ([], l)
  | token :: tokens => do
    let (p, l) ← l.claim token
    let (ps, l) ← l.claimAll tokens
    return (p :: ps, l)

/-- All requests that are not answered yet: the parked ones by ticket, then those in flight by
token. -/
def calls (l : RequestLedger) : List CallId :=
  l.parked.values.map (·.call) ++ l.inFlight.values.map (·.call)

/-- The references that requests in flight hold on their targets. -/
def holds (l : RequestLedger) : List Reference := l.inFlight.values.filterMap (·.target)

/-- Forgets all requests. -/
def clear (l : RequestLedger) : RequestLedger := { l with inFlight := .empty, parked := .empty }

end RequestLedger

end Telepathy

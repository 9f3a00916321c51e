import Telepathy.Bus.Address
import Telepathy.Sorted.Map
import Telepathy.Sorted.Set

set_option autoImplicit false

/-!
# Client interest

Clients declare interest in optional features by token, as often as they like, and withdraw it as
often. A feature is wanted while at least one client has an outstanding declaration of it, and a
client's presence on the bus is watched while it has an outstanding declaration of anything.

The table keeps the declarations of every client and, beside them, for every wanted token the
number of clients that declared it. Operations answer with the tokens that became wanted or unwanted
and with what to do about watching the client.
-/

namespace Telepathy

/-- A token that became wanted, or stopped being wanted. -/
inductive InterestTransition
  | interested (token : String)
  | uninterested (token : String)
deriving DecidableEq, Repr

/-- What an update means for watching the client. -/
inductive Watch
  | keep
  | start
  | stop
deriving DecidableEq, Repr

/-- The outcome of one update. -/
structure InterestUpdate where
  /-- The tokens that changed, in the order in which they did. -/
  transitions : List InterestTransition
  watch : Watch
deriving DecidableEq, Repr

/-- The declarations of all clients. -/
structure InterestTable where
  /-- The tokens that mean something; others are ignored. -/
  possible : SortedSet String
  /-- The number of clients that hold each wanted token. -/
  holders : SortedMap String Nat
  /-- The outstanding declarations of each watched client, by token. -/
  declared : SortedMap ClientName (SortedMap String Nat)
deriving DecidableEq

namespace InterestTable

/-- A table without declarations. -/
def new (possible : List String) : InterestTable := ⟨.ofList possible, .empty, .empty⟩

/-- The number of clients that hold a token. -/
def clientsInterested (t : InterestTable) (token : String) : Nat := (t.holders.get? token).getD 0

/-- Whether any client holds a token. -/
def isWanted (t : InterestTable) (token : String) : Bool := 0 < t.clientsInterested token

/-- The outstanding declarations of a client. -/
def row (t : InterestTable) (client : ClientName) : SortedMap String Nat :=
  (t.declared.get? client).getD .empty

/-- The clients that hold anything. -/
def clients (t : InterestTable) : List ClientName := t.declared.keys

/-! ## Declaring -/

/-- Counts one more declaration of a possible token. -/
def declare (client : ClientName) (s : InterestTable × List InterestTransition) (token : String) :
    InterestTable × List InterestTransition :=
  let (t, transitions) := s
  let row := t.row client
  let count := (row.get? token).getD 0 + 1
  let t := { t with declared := t.declared.insert client (row.insert token count) }
  -- Only the first declaration of a token makes its client one of the holders.
  if 1 < count then (t, transitions)
  else
    let clients := t.clientsInterested token + 1
    ({ t with holders := t.holders.insert token clients },
      if clients = 1 then transitions ++ [.interested token] else transitions)

/-- Counts one more declaration of each token, for those that are possible. -/
def add (t : InterestTable) (client : ClientName) (tokens : List String) :
    InterestTable × InterestUpdate :=
  let (t', transitions) := (tokens.filter (· ∈ t.possible)).foldl (declare client) (t, [])
  let fresh := !t.declared.contains client && t'.declared.contains client
  (t', ⟨transitions, if fresh then .start else .keep⟩)

/-! ## Withdrawing -/

/-- Counts one client less for a token. -/
def releaseToken (s : InterestTable × List InterestTransition) (token : String) :
    InterestTable × List InterestTransition :=
  let (t, transitions) := s
  match t.holders.get? token with
  | none => (t, transitions)
  | some clients =>
    if clients - 1 = 0 then
      ({ t with holders := t.holders.erase token }, transitions ++ [.uninterested token])
    else ({ t with holders := t.holders.insert token (clients - 1) }, transitions)

/-- Counts one client less for each of several tokens. -/
def releaseTokens (t : InterestTable) (tokens : List String) :
    InterestTable × List InterestTransition :=
  tokens.foldl releaseToken (t, [])

/-- Takes back one declaration of a token from a client's row; the second component collects the
tokens of which no declaration is left. -/
def withdraw (s : SortedMap String Nat × List String) (token : String) :
    SortedMap String Nat × List String :=
  let (row, gone) := s
  match row.get? token with
  | none => (row, gone)
  | some count =>
    if count - 1 = 0 then (row.erase token, gone ++ [token])
    else (row.insert token (count - 1), gone)

/-- Takes back one declaration of each token; what was never declared is ignored. -/
def remove (t : InterestTable) (client : ClientName) (tokens : List String) :
    InterestTable × InterestUpdate :=
  match t.declared.get? client with
  | none => (t, ⟨[], .keep⟩)
  | some row =>
    let (row, gone) := tokens.foldl withdraw (row, [])
    let (declared, watch) :=
      if row.isEmpty then (t.declared.erase client, Watch.stop)
      else (t.declared.insert client row, Watch.keep)
    let (t, transitions) := releaseTokens { t with declared } gone
    (t, ⟨transitions, watch⟩)

/-- Takes back everything a client declared, as when it leaves the bus. -/
def vanish (t : InterestTable) (client : ClientName) : InterestTable × InterestUpdate :=
  match t.declared.get? client with
  | none => (t, ⟨[], .keep⟩)
  | some row =>
    let (t, transitions) := releaseTokens { t with declared := t.declared.erase client } row.keys
    (t, ⟨transitions, .stop⟩)

/-- Takes back everything, and says whose declarations these were. -/
def clear (t : InterestTable) : InterestTable × List ClientName :=
  ({ t with holders := .empty, declared := .empty }, t.clients)

end InterestTable

end Telepathy

import Telepathy.Bus.Signal
import Telepathy.Channel.Effect

set_option autoImplicit false

/-!
# What a connection does

Everything a connection does to its surroundings is an `Event`: what it tells the bus, the hooks of
its backend that it calls, and its dealings with channel managers. A connection lists its events in
the order in which they happen, and the laws about runs are laws about this list.
-/

namespace Telepathy

/-- A hook by which a backend learns of the connection's life. -/
inductive Hook
  /-- The backend is to start connecting. -/
  | startConnecting
  | connecting
  | connected
  | disconnected
  /-- The backend is to tear down what it has. -/
  | shutDown
  /-- A feature has become wanted. -/
  | interested (token : String)
  /-- A feature is no longer wanted. -/
  | uninterested (token : String)
deriving DecidableEq, Repr

/-- One thing a connection does. Managers are named by their seat, counted from zero. -/
inductive Event
  /-- A well-known name was asked for, with or without success. -/
  | nameClaimed (name : BusName) (granted : Bool)
  | nameReleased (name : BusName)
  /-- The export of an object was asked for, with or without success. -/
  | objectExported (path : ObjectPath) (interfaces : List String) (granted : Bool)
  | objectWithdrawn (path : ObjectPath)
  | signal (path : ObjectPath) (s : Signal)
  /-- A call was answered. -/
  | answered (call : CallId) (answer : CallAnswer)
  | watched (client : ClientName)
  | unwatched (client : ClientName)
  | hook (h : Hook)
  /-- The backend was asked to look an identifier up. -/
  | lookup (ticket : LookupTicket) (entity : EntityType) (id : String)
  /-- A request was offered to a manager. -/
  | offered (seat : Nat) (r : ChannelRequest)
  /-- A manager was told of a new status. -/
  | notified (seat : Nat) (status : Status)
  /-- A manager called its contact server. -/
  | called (seat : Nat) (call : ServerCall)
deriving DecidableEq

end Telepathy
